import FriendLedger.Proofs.Ledger.Balances
import FriendLedger.Proofs.Ledger.Canonical
import FriendLedger.Proofs.Ledger.Isolation

/-! What the engine has stored can be read. Reading does not check the form in which rows
are stored, it relies on it: no call answers that an id or a currency is corrupt, no two
stored currencies are added up in the program, and what two users have in common is
listed as it is found on its own. -/

namespace FriendLedger

set_option autoImplicit false

/-- A listed expense beside the full one: the same header, and for each of the two users
the sum of his shares. -/
structure Expense.ListedFrom (full : Expense) (a b : String) (e : Expense) : Prop where
  id : e.id = full.id
  timestamp : e.timestamp = full.timestamp
  details : e.details = full.details
  totalCost : e.totalCost = full.totalCost
  currency : e.currency = full.currency
  nodup : (e.shares.map (·.counterparty)).Nodup
  parties : ∀ u, (∃ x ∈ e.shares, x.counterparty = u) ↔ u = a ∨ u = b
  costs : ∀ x ∈ e.shares, x.signedCost.toInt =
    ((full.shares.filter (·.counterparty = x.counterparty)).map (·.signedCost.toInt)).sum

/-- The store holds rows in the form in which the engine writes them, and all that is read
from it is answered, unless the store itself fails to take a sum. -/
structure Store.Readable (s : Store) : Prop where
  refers : ∀ p ∈ s.heldSpendings, ∃ d ∈ s.heldDeals, d.id = p.dealId
  deal_ids : ∀ d ∈ s.heldDeals, ∃ i : Id, i.toText = d.id
  spending_ids : ∀ p ∈ s.heldSpendings, ∃ i : Id, i.toText = p.id
  not_blank : ∀ d ∈ s.heldDeals, ¬ ∀ c ∈ d.currency.toList, Text.isBlank c = true
  currencies : ∀ d ∈ s.heldDeals, ∃ c, Currency.ofText? d.currency = some c ∧ c.code = d.currency
  distinct : ∀ d ∈ s.heldDeals, ∀ d' ∈ s.heldDeals,
    Currency.ofText? d.currency = Currency.ofText? d'.currency → d.currency = d'.currency
  find : ∀ id, ∃ found, Ledger.find? s id = .ok found
  get : ∀ actor id, ErrorsIn (fun f => f = .expenseNotFound id.toText ∨
    f = .notYourExpense (actor ++ " holds no share of " ++ id.toText)) (Ledger.get s actor id)
  take : ∀ id, ErrorsIn (· = .expenseNotFound id.toText) (RemoveExpense.take s id)
  remove : ∀ actor id j (b : Book), b.store = s → ErrorsIn (fun f => f = .expenseNotFound id.toText ∨
    f = .notYourExpense (actor ++ " holds no share of " ++ id.toText)) (Ledger.remove actor id j b).1
  between : ∀ a b, ErrorsIn (· = .database .sumOutOfRange) (Ledger.between s a b)
  balances : ∀ user, ErrorsIn (· = .failure (.database .sumOutOfRange)) (Ledger.balances s user)
  listed : ∀ a b es, Ledger.between s a b = .ok es → ∀ e ∈ es, ∃ id full, e.id = some id ∧
    Ledger.find? s id = .ok (some full) ∧ full.ListedFrom a b e

section Views
variable {s : Store} {a b : String} {d : DealRow} {e full : Expense}

/-- The spendings of one deal are summed up by party as those of the whole table are. -/
theorem Store.sum_filter_sorted (s : Store) (user : String) (d : DealRow) :
    (((Share.sorted ((s.spendingsAt d.id).map SpendingRow.toShare)).filter
      (·.counterparty = user)).map (·.signedCost.toInt)).sum = s.ownCost user d := by
  rw [(Share.stablySorted_sorted _).stable, List.filter_map, List.map_map, spendingsAt,
    List.filter_filter, ownCost]
  rfl

theorem Expense.ViewOf.listedFrom (h : e.ViewOf s a b d)
    (hfull : (ExpenseRows.mk d (s.spendingsAt d.id)).decode = .ok full) : full.ListedFrom a b e := by
  obtain ⟨i, c, hi, hc, rfl⟩ := DealRow.decode_eq_ok hfull
  obtain ⟨i', hi', hid⟩ := h.id
  refine ⟨?_, h.timestamp, h.details, h.totalCost, ?_, ?_, h.parties, ?_⟩
  · exact hid.trans (hi'.symm.trans hi)
  · exact Option.some.inj (h.currency.symm.trans hc)
  · rw [List.nodup_iff_pairwise_ne, List.pairwise_map]
    apply h.ascending.imp
    intro x y hlt heq
    rw [heq] at hlt
    exact List.lt_irrefl _ hlt
  · intro x hx
    rw [h.costs x hx]
    exact (s.sum_filter_sorted x.counterparty d).symm

end Views

namespace Store.Canonical
variable {s : Store} (h : s.Canonical)
include h

/-! ### One expense -/

theorem find?_ok (id : Id) : ∃ found, Ledger.find? s id = .ok found := by
  rw [Ledger.find?_eq h.toComplete]
  cases hd : (s.dealsAt id.toText).head? with
  | none => exact ⟨none, rfl⟩
  | some d =>
    obtain ⟨e, he⟩ := (h.rowsAt hd).decode_ok
    refine ⟨some e, ?_⟩
    dsimp only
    rw [he]
    rfl

theorem errorsIn_get (actor : String) (id : Id) : ErrorsIn (fun f => f = .expenseNotFound id.toText ∨
    f = .notYourExpense (actor ++ " holds no share of " ++ id.toText)) (Ledger.get s actor id) := by
  obtain ⟨found, hfound⟩ := h.find?_ok id
  unfold Ledger.get
  rw [hfound, ok_bind]
  cases found with
  | none => exact errorsIn_error.mpr (.inl rfl)
  | some e =>
    dsimp only
    split
    · exact errorsIn_ok e
    · exact errorsIn_error.mpr (.inr rfl)

theorem errorsIn_take (id : Id) :
    ErrorsIn (· = .expenseNotFound id.toText) (RemoveExpense.take s id) := by
  unfold RemoveExpense.take
  rw [h.findExpense_eq, h.deleteExpense_eq]
  cases hd : (s.dealsAt id.toText).head? with
  | none => exact errorsIn_error.mpr rfl
  | some d =>
    obtain ⟨e, he⟩ := (h.rowsAt hd).decode_ok
    simp only [Option.map_some, orDatabase, ok_bind, he]
    exact errorsIn_ok _

theorem errorsIn_remove (actor : String) (id : Id) (j : Journal) {b : Book} (hb : b.store = s) :
    ErrorsIn (fun f => f = .expenseNotFound id.toText ∨
      f = .notYourExpense (actor ++ " holds no share of " ++ id.toText))
        (Ledger.remove actor id j b).1 := by
  subst hb
  have hget := h.errorsIn_get actor id
  have htake := h.errorsIn_take id
  unfold Ledger.remove
  split
  · cases hread : RemoveExpense.take b.store id with
    | ok found =>
      simp only [Ledger.take, Journal.perform, Reversible.perform, RemoveExpense.perform,
        RemoveExpense.new, hread]
      exact errorsIn_ok _
    | error f =>
      simp only [Ledger.take, Journal.perform, Reversible.perform, RemoveExpense.perform,
        RemoveExpense.new, hread]
      exact errorsIn_error.mpr (.inl (htake f hread))
  · rename_i f hread
    exact errorsIn_error.mpr (hget f hread)

/-! ### Common expenses -/

theorem fault?_eq_none {d : DealRow} (hd : d ∈ s.heldDeals) : d.fault? = none := by
  obtain ⟨⟨i, hi⟩, c, hc, -⟩ := h.canonical_deals d hd
  rw [DealRow.fault?, ← hi, Id.ofText?_toText, hc]

theorem errorsIn_between (a b : String) :
    ErrorsIn (· = .database .sumOutOfRange) (Ledger.between s a b) := by
  intro f hf
  have hrows := Ledger.pairRows_eq (a := a) (b := b) h.dealRows_eq h.spendingRows_eq
  split at hrows
  · rw [Ledger.between, hrows] at hf
    cases hf
    rfl
  · have hfault := (Ledger.between_eq_error_iff hrows).mp hf
    obtain ⟨d, hd, hd'⟩ := List.exists_of_findSome?_eq_some hfault
    have hmem := (Ledger.perm_pairRows h.toComplete hrows).1.mem_iff.mp hd
    rw [h.fault?_eq_none (List.mem_of_mem_filter hmem)] at hd'
    cases hd'

theorem exists_listedFrom {a b : String} {es : List Expense} (hes : Ledger.between s a b = .ok es)
    {e : Expense} (he : e ∈ es) : ∃ id full, e.id = some id ∧
      Ledger.find? s id = .ok (some full) ∧ full.ListedFrom a b e := by
  obtain ⟨rows, hrows, hdecode⟩ := bind_eq_ok_iff.mp hes
  have hrows := orDatabase_eq_ok_iff.mp hrows
  obtain ⟨r, hr, hre⟩ := exists_of_mem_mapM hdecode he
  obtain ⟨hperm, hsums⟩ := Ledger.perm_pairRows h.toComplete hrows
  have hd : r.deal ∈ s.heldDeals :=
    List.mem_of_mem_filter (hperm.mem_iff.mp (List.mem_map_of_mem hr))
  have hview := Ledger.PairRow.viewOf (hsums r hr).1 (hsums r hr).2 hre
  obtain ⟨i, hi, hid⟩ := hview.id
  have hhead : (s.dealsAt r.deal.id).head? = some r.deal := by
    rw [h.dealsAt_eq hd]
    rfl
  obtain ⟨full, hfull⟩ := (h.rowsAt hhead).decode_ok
  have htext : i.toText = r.deal.id := by
    obtain ⟨i', hi'⟩ := (h.canonical_deals _ hd).id
    rw [← hi', Id.ofText?_toText] at hi
    cases hi
    exact hi'
  refine ⟨i, full, hid, ?_, hview.listedFrom hfull⟩
  rw [Ledger.find?_eq h.toComplete, htext, hhead]
  dsimp only
  rw [hfull]
  rfl

/-! ### Balances -/

theorem currency_inj {d d' : DealRow} (hd : d ∈ s.heldDeals) (hd' : d' ∈ s.heldDeals)
    (heq : Currency.ofText? d.currency = Currency.ofText? d'.currency) : d.currency = d'.currency := by
  obtain ⟨-, c, hc, hcode⟩ := h.canonical_deals d hd
  obtain ⟨-, c', hc', hcode'⟩ := h.canonical_deals d' hd'
  rw [hc, hc'] at heq
  cases heq
  rw [← hcode, ← hcode']

end Store.Canonical

/-- An amount in a currency that the purse does not hold yet is not added to anything. -/
theorem Purse.add?_of_get?_eq_none {p : Purse} {c : Currency} (h : p.get? c = none) (a : Amount) :
    p.add? c a = some (p.insert c a) := by
  have hzero : Amount.add? 0 a = some a := by
    rw [Amount.add?, Int64.toInt_zero, Int.zero_add, Amount.ofInt?_toInt]
  rw [add?, h, Option.getD_none, hzero]
  rfl

namespace Ledger

/-- Groups under codes that are their own normal forms never meet in the purse. -/
theorem foldlM_addStored_ok {groups : List (String × Amount)} (hn : (groups.map (·.1)).Nodup)
    (hcodes : ∀ g ∈ groups, ∃ c, Currency.ofText? g.1 = some c ∧ c.code = g.1) {p : Purse}
    (hp : ∀ g ∈ groups, ∀ c, Currency.ofText? g.1 = some c → p.get? c = none) :
    ∃ p', groups.foldlM addStored p = .ok p' := by
  induction groups generalizing p with
  | nil => exact ⟨p, rfl⟩
  | cons g groups ih =>
    obtain ⟨hg, hn⟩ := List.nodup_cons.mp hn
    obtain ⟨⟨c, hc, hcode⟩, hcodes⟩ := List.forall_mem_cons.mp hcodes
    obtain ⟨hnone, hp⟩ := List.forall_mem_cons.mp hp
    have hadd : addStored p g = .ok (p.insert c g.2) := by
      have hdecode : Currency.decode g.1 = .ok c := by rw [Currency.decode, hc]
      simp only [addStored, hdecode, orStop, ok_bind, Purse.add?_of_get?_eq_none (hnone c hc),
        pure_eq_ok]
    rw [List.foldlM_cons, hadd, ok_bind]
    apply ih hn hcodes
    intro g' hg' c' hc'
    have hne : c' ≠ c := by
      rintro rfl
      obtain ⟨c₀, hc₀, hcode'⟩ := hcodes g' hg'
      cases hc'.symm.trans hc₀
      exact hg (List.mem_map.mpr ⟨g', hg', hcode'.symm.trans hcode⟩)
    rw [Purse.get?_insert, if_neg hne]
    exact hp g' hg' c' hc'

theorem errorsIn_total (amounts : List Amount) : ErrorsIn (· = .sumOutOfRange) (total amounts) := by
  unfold total
  split
  · exact errorsIn_ok _
  · exact errorsIn_error.mpr rfl

theorem errorsIn_balanceRows {s : Store} (hc : s.Complete) (user : String) :
    ErrorsIn (· = .sumOutOfRange) (balanceRows s user) := by
  unfold balanceRows
  rw [hc.dealRows_eq, hc.spendingRows_eq, ok_bind, ok_bind]
  refine ErrorsIn.bind (ErrorsIn.mapM ?_ _) ?_
  · intro id
    exact (errorsIn_total _).bind fun _ => errorsIn_ok _
  · intro mine
    apply ErrorsIn.mapM
    intro counterparty
    refine ErrorsIn.bind (ErrorsIn.mapM ?_ _) fun _ => errorsIn_ok _
    intro currency
    exact (errorsIn_total _).bind fun _ => errorsIn_ok _

theorem errorsIn_balances {s : Store} (h : s.Canonical) (user : String) :
    ErrorsIn (· = .failure (.database .sumOutOfRange)) (balances s user) := by
  unfold balances
  refine ErrorsIn.bind_of_ok ?_ ?_
  · have hrows := errorsIn_balanceRows h.toComplete user
    cases hread : balanceRows s user with
    | ok rows => exact errorsIn_ok rows
    | error f =>
      rw [hrows f hread]
      exact errorsIn_error.mpr rfl
  · intro rows hrows
    obtain ⟨mine, hmine, -, hgroups⟩ :=
      balanceRows_eq_ok h.toComplete (orDatabase_eq_ok_iff.mp (orStop_eq_ok_iff.mp hrows))
    apply ErrorsIn.mapM_of_mem
    intro row hrow
    have hread := hgroups row hrow
    have hn : (row.2.map (·.1)).Nodup := by
      rw [(mapM_pair_eq_ok hread).1]
      exact Roster.nodup_ofList _
    have hcodes : ∀ g ∈ row.2, ∃ c, Currency.ofText? g.1 = some c ∧ c.code = g.1 := by
      intro g hg
      have hentry := ((groupsOf_eq_ok hread).1 g.1).mp ⟨g, hg, rfl⟩
      obtain ⟨-, d, hd, hdg⟩ := (mem_entriesOf_iff h.nodup_deals hmine).mp hentry
      rw [← hdg]
      exact (h.canonical_deals d (List.mem_of_mem_filter hd)).currency
    obtain ⟨p, hp⟩ := foldlM_addStored_ok hn hcodes (p := .empty) fun _ _ _ _ => rfl
    rw [hp]
    exact errorsIn_ok _

end Ledger

theorem Store.Canonical.readable {s : Store} (h : s.Canonical) : s.Readable where
  refers := h.refers
  deal_ids := fun d hd => (h.canonical_deals d hd).id
  spending_ids := h.canonical_spendings
  not_blank := by
    intro d hd hblank
    obtain ⟨c, hc, -⟩ := (h.canonical_deals d hd).currency
    rw [Currency.ofText?_eq_none_iff.mpr hblank] at hc
    cases hc
  currencies := fun d hd => (h.canonical_deals d hd).currency
  distinct := fun d hd d' hd' => h.currency_inj hd hd'
  find := h.find?_ok
  get := h.errorsIn_get
  take := h.errorsIn_take
  remove := fun actor id j _ hb => h.errorsIn_remove actor id j hb
  between := h.errorsIn_between
  balances := Ledger.errorsIn_balances h
  listed := fun a b es hes e he => h.exists_listedFrom hes he

namespace Session

/-- Whatever the engine is asked to do, at whatever times and in whichever order, and however
much of it is undone again, what it has stored can be read. -/
theorem engine_store_readable {steps : List (Amount × Step)}
    (hsteps : ∀ x ∈ steps, x.2.IsEngine) : (fresh.after steps).book.store.Readable :=
  (Store.invariant_canonical.satisfies_after Store.canonical_fresh hsteps).store.readable

def addToll : List String :=
  ["expenses", "add", "--actor", "bob", "--details", "toll", "--total", "2", "--currency", "chf",
    "--share", "bob=2"]

/-- A toll is paid at two times. The first payment is removed and put back. -/
def restoredSteps : List (Amount × Step) :=
  [(1, .commandLine addToll), (2, .commandLine addToll),
    (3, .removeExpense "bob" (Id.minted 1) (some "j")), (4, .journalRollback "j")]

theorem restored_store_readable : (∀ x ∈ restoredSteps, x.2.IsEngine) ∧
    (fresh.after restoredSteps).book.store.heldDeals.map (fun d => (d.timestamp, d.currency)) =
        [(2, "CHF"), (1, "CHF")] ∧
      (fresh.after restoredSteps).book.store.Readable := by
  have hsteps : ∀ x ∈ restoredSteps, x.2.IsEngine := by simp [restoredSteps, Step.IsEngine]
  have hstored : (fresh.after restoredSteps).book.store.heldDeals.map
      (fun d => (d.timestamp, d.currency)) = [(2, "CHF"), (1, "CHF")] := by
    decide +kernel
  exact ⟨hsteps, hstored, engine_store_readable hsteps⟩

end Session
end FriendLedger
