import FriendLedger.Proofs.Ledger.Readable
import FriendLedger.Proofs.Ledger.Refinement

/-! Ledgers of transfers. A transfer is an expense of two users in which one gets what the
other gives, in however many shares. As long as nothing but transfers is added, removed and
put back, what a user has with another one is what the other one lacks. -/

namespace FriendLedger

set_option autoImplicit false

/-- The shares are those of two users, and they cancel out. -/
structure Expense.IsTransfer (e : Expense) : Prop where
  parties : ∃ a b, a ≠ b ∧ ∀ u, e.involves u = true ↔ u = a ∨ u = b
  settled : (e.shares.map (·.signedCost.toInt)).sum = 0

/-- What one of the two gets the other one gives. -/
theorem Expense.IsTransfer.sum_add_sum {e : Expense} (h : e.IsTransfer) {a b : String}
    (hab : a ≠ b) (ha : e.involves a = true) (hb : e.involves b = true) :
    ((e.shares.filter (·.counterparty = a)).map (·.signedCost.toInt)).sum +
      ((e.shares.filter (·.counterparty = b)).map (·.signedCost.toInt)).sum = 0 := by
  obtain ⟨u, v, -, hparties⟩ := h.parties
  have hshares : ∀ x ∈ e.shares, x.counterparty ∈ [a, b] := by
    intro x hx
    have hx := (hparties _).mp (e.involves_iff _ |>.mpr ⟨x, hx, rfl⟩)
    rw [hparties] at ha hb
    simp only [List.mem_cons, List.not_mem_nil, or_false]
    grind
  have hkeys : [a, b].Nodup := by simpa using hab
  have hsum := sum_by_key Share.counterparty (·.signedCost.toInt) hkeys hshares
  rw [h.settled] at hsum
  simpa using hsum

/-! ### Runs of postings -/

def Posting.Of (P : Expense → Prop) : Posting → Prop
  | .adding e _ => P e
  | .removing _ removed => ∀ e ∈ removed, P e

theorem Posting.of_ofNew? {P : Expense → Prop} {op : Operation} {p : Posting}
    (h : Posting.ofNew? op = some p) (hop : ∀ a, op = .addExpense a → P a.expense) : p.Of P := by
  unfold ofNew? at h
  split at h
  · cases h
    exact hop _ rfl
  · cases h
    intro e he
    cases he
  · cases h

namespace Register

/-- All expenses of the register, also those that could be put back, are of one kind. -/
structure Of (r : Register) (P : Expense → Prop) : Prop where
  entries : ∀ id e, r.entries.lookup id = some e → P e
  journals : ∀ name, ∀ p ∈ r.journals name, p.Of P
  handles : ∀ name p, r.handles name = some p → p.Of P

variable {P : Expense → Prop} {stale : Prop} {r r' : Register} {p p' : Posting}

namespace Of

theorem empty : Register.empty.Of P where
  entries id e he := by
    rw [Register.empty, Finmap.lookup_empty] at he
    cases he
  journals name p hp := by cases hp
  handles name p hp := by cases hp

variable (h : r.Of P)
include h

theorem insert {id : Id} {e : Expense} (he : P e) {i : Id} {x : Expense}
    (hx : (r.entries.insert id e).lookup i = some x) : P x := by
  by_cases hid : i = id
  · rw [hid, Finmap.lookup_insert] at hx
    cases hx
    exact he
  · rw [Finmap.lookup_insert_of_ne _ hid] at hx
    exact h.entries i x hx

theorem enter (id : Id) {e : Expense} (he : P e) : (r.enter id e).Of P :=
  ⟨fun _ _ => h.insert he, h.journals, h.handles⟩

theorem restore (id : Id) {e : Expense} (he : P e) : (r.restore id e).Of P :=
  ⟨fun _ _ => h.insert he, h.journals, h.handles⟩

theorem erase (id : Id) : (r.erase id).Of P where
  entries i e he := by
    by_cases hid : i = id
    · rw [hid, Register.erase, Finmap.lookup_erase] at he
      cases he
    · rw [Register.erase, Finmap.lookup_erase_ne hid] at he
      exact h.entries i e he
  journals := h.journals
  handles := h.handles

theorem hold (name : String) {held : Option Posting} (hp : ∀ p ∈ held, p.Of P) :
    (r.hold name held).Of P where
  entries := h.entries
  journals := h.journals
  handles other p hother := by
    rw [handles_hold] at hother
    split at hother
    · exact hp p hother
    · exact h.handles other p hother

theorem setJournal (name : String) {ps : List Posting} (hps : ∀ p ∈ ps, p.Of P) :
    (r.setJournal name ps).Of P where
  entries := h.entries
  journals other := by
    rw [journals_setJournal]
    split
    · exact hps
    · exact h.journals other
  handles := h.handles

theorem note (journal : Option String) (hp : p.Of P) : (r.note journal p).Of P := by
  cases journal with
  | none => exact h
  | some name => exact h.setJournal name (List.forall_mem_cons.mpr ⟨hp, h.journals name⟩)

end Of

theorem Performs.of {out : Option Output} (h : Performs stale r p out p' r') (hr : r.Of P)
    (hp : p.Of P) : p'.Of P ∧ r'.Of P := by
  cases h with
  | add => exact ⟨hp, hr.enter _ hp⟩
  | @remove id e he =>
    refine ⟨?_, hr.erase id⟩
    intro x hx
    cases hx
    exact hr.entries id e he
  | _ => exact ⟨hp, hr⟩

theorem Reverses.of {ok : Bool} (h : Reverses stale r p ok p' r') (hr : r.Of P) (hp : p.Of P) :
    p'.Of P ∧ r'.Of P := by
  cases h with
  | add => exact ⟨hp, hr.erase _⟩
  | @remove id e =>
    refine ⟨?_, hr.restore id (hp e rfl)⟩
    intro x hx
    cases hx
  | _ => exact ⟨hp, hr⟩

theorem ReversesAll.of {ps : List Posting} {ok : Bool} (h : ReversesAll stale r ps ok r')
    (hr : r.Of P) (hps : ∀ p ∈ ps, p.Of P) : r'.Of P := by
  induction h with
  | nil => exact hr
  | cons h _ ih =>
    obtain ⟨hp, hrest⟩ := List.forall_mem_cons.mp hps
    exact ih (h.of hr hp).2 hrest
  | stop h => exact (h.of hr (List.forall_mem_cons.mp hps).1).2

end Register

/-- The expense that comes in with a step. -/
def Session.Step.brought? : Session.Step → Option Expense
  | .addExpense _ e _ => some e
  | .hold _ (.addExpense op) => some op.expense
  | _ => none

/-- Nothing but what comes in is ever entered or put back. -/
theorem Register.Takes.of {P : Expense → Prop} {stale : Prop} {r r' : Register}
    {step : Session.Step} {answer : Except Session.Refusal Session.Reply}
    (h : r.Takes stale step answer r') (hr : r.Of P) (hstep : ∀ e ∈ step.brought?, P e) :
    r'.Of P := by
  cases h with
  | read => exact hr
  | @add _ e _ _ _ _ _ _ hp =>
    obtain ⟨hp', hr'⟩ := hp.of hr (hstep e rfl)
    exact hr'.note _ hp'
  | remove _ _ hp =>
    obtain ⟨hp', hr'⟩ := hp.of hr fun e he => by cases he
    exact hr'.note _ hp'
  | hold hp =>
    refine hr.hold _ fun p hmem => ?_
    cases hmem
    refine Posting.of_ofNew? hp fun op hop => ?_
    subst hop
    exact hstep _ rfl
  | perform hp hperf =>
    obtain ⟨hp', hr'⟩ := hperf.of hr (hr.handles _ _ hp)
    refine hr'.hold _ fun p hmem => ?_
    cases hmem
    exact hp'
  | reverse hp hrev =>
    obtain ⟨hp', hr'⟩ := hrev.of hr (hr.handles _ _ hp)
    refine hr'.hold _ fun p hmem => ?_
    cases hmem
    exact hp'
  | journalPerform hp hperf =>
    obtain ⟨hp', hr'⟩ := hperf.of (hr.hold _ fun p hmem => by cases hmem) (hr.handles _ _ hp)
    exact hr'.note _ hp'
  | journalPerform_failed => exact hr.hold _ fun p hmem => by cases hmem
  | commit => exact hr.setJournal _ (List.forall_mem_nil _)
  | drop => exact hr.setJournal _ (List.forall_mem_nil _)
  | rollback hps => exact (hps.of hr (hr.journals _)).setJournal _ (List.forall_mem_nil _)
  | rollback_failed hps => exact (hps.of hr (hr.journals _)).setJournal _ (List.forall_mem_nil _)
  | _ => exact hr

namespace Session

theorem Step.isEngine_of_isLedger {step : Step} (h : step.isLedger = true) : step.IsEngine := by
  cases step with
  | hold handle op =>
    obtain ⟨p, hp⟩ := Option.isSome_iff_exists.mp h
    unfold Posting.ofNew? at hp
    split at hp
    · exact .inr rfl
    · exact .inr rfl
    · cases hp
  | insertEdge | insertDeal | insertSpending | dropTable | migrate => cases h
  | _ => trivial

/-- The catalogue that a run leads to, if all that comes in is of one kind. -/
theorem Tracks.exists_after {P : Expense → Prop} {s : Session} {r : Register}
    (h : s.Tracks r) (hr : r.Of P) {steps : List (Amount × Step)}
    (hsteps : ∀ x ∈ steps, x.2.isLedger = true)
    (hbrought : ∀ x ∈ steps, ∀ e ∈ x.2.brought?, P e) :
    ∃ r', (s.after steps).Tracks r' ∧ r'.Of P := by
  induction steps generalizing s r with
  | nil => exact ⟨r, h, hr⟩
  | cons x steps ih =>
    obtain ⟨hstep, hsteps⟩ := List.forall_mem_cons.mp hsteps
    obtain ⟨hin, hbrought⟩ := List.forall_mem_cons.mp hbrought
    obtain ⟨r', htakes, htracks⟩ : Tracked x.1 s r x.2 := h.step hstep
    exact ih htracks (htakes.of hr hin) hsteps hbrought

end Session

/-! ### Stored transfers -/

namespace Store
variable {s : Store} {m : Catalogue} {a b : String} {d : DealRow}

theorem commonDeals_comm (s : Store) (a b : String) : s.commonDeals a b = s.commonDeals b a := by
  rw [commonDeals, commonDeals]
  simp only [and_comm]

/-- Every deal in a canonical form is the one of an expense of the catalogue. -/
theorem Holds.exists_expense (h : s.Holds m) (hc : s.Canonical) (hd : d ∈ s.heldDeals) :
    ∃ id e, m.lookup id = some e ∧ (ExpenseRows.mk d (s.spendingsAt d.id)).Encodes id e := by
  obtain ⟨id, hid⟩ := (hc.canonical_deals d hd).id
  have hhead : (s.dealsAt id.toText).head? = some d := by
    rw [hid, hc.dealsAt_eq hd]
    rfl
  obtain ⟨e, he, henc⟩ := h.exists_of_head? hhead
  rw [hid] at henc
  exact ⟨id, e, he, henc⟩

theorem ownCost_eq {id : Id} {e : Expense}
    (h : (ExpenseRows.mk d (s.spendingsAt d.id)).Encodes id e) (user : String) :
    s.ownCost user d =
      ((e.shares.filter (·.counterparty = user)).map (·.signedCost.toInt)).sum := by
  rw [← s.sum_filter_sorted user d, h.shares, (Share.stablySorted_sorted e.shares).stable]

theorem involves_of_holdsShare {id : Id} {e : Expense}
    (h : (ExpenseRows.mk d (s.spendingsAt d.id)).Encodes id e) {user : String}
    (hp : s.HoldsShare user d) : e.involves user = true := by
  obtain ⟨p, hp, hid, huser⟩ := hp
  rw [Expense.involves_iff, ← h.shares]
  exact ⟨p.toShare, List.mem_map_of_mem (mem_spendingsAt_iff.mpr ⟨hp, hid⟩), huser⟩

/-- In a deal of two users the costs of the one make up for those of the other. -/
theorem ownCost_eq_neg (h : s.Holds m) (hc : s.Canonical)
    (hm : ∀ id e, m.lookup id = some e → e.IsTransfer) (hab : a ≠ b)
    (hd : d ∈ s.commonDeals a b) : s.ownCost a d = -s.ownCost b d := by
  obtain ⟨hd, hparts⟩ := List.mem_filter.mp hd
  obtain ⟨ha, hb⟩ := of_decide_eq_true hparts
  obtain ⟨id, e, he, henc⟩ := h.exists_expense hc hd
  have hsum := (hm id e he).sum_add_sum hab (involves_of_holdsShare henc ha)
    (involves_of_holdsShare henc hb)
  rw [ownCost_eq henc, ownCost_eq henc]
  omega

end Store

/-- Two users who have opposite costs of what they have in common see opposite balances. -/
theorem Ledger.balances_eq_neg {s : Store} (hc : s.Complete)
    (hn : (s.heldDeals.map (·.id)).Nodup) {a b : String} {xs ys : List Balance}
    (hxs : balances s a = .ok xs) (hys : balances s b = .ok ys)
    (hcosts : ∀ d ∈ s.commonDeals a b, s.ownCost a d = -s.ownCost b d) {x y : Balance}
    (hx : x ∈ xs) (hxb : x.counterparty = b) (hy : y ∈ ys) (hya : y.counterparty = a)
    (c : Currency) : ((x.currencies.get? c).isSome ↔ (y.currencies.get? c).isSome) ∧
      (x.inCurrency c).toInt = -(y.inCurrency c).toInt := by
  obtain ⟨hxkey, hxsum⟩ := (currencies_of_mem_balances hc hn hxs hx).2 c
  obtain ⟨hykey, hysum⟩ := (currencies_of_mem_balances hc hn hys hy).2 c
  rw [hxb] at hxkey hxsum
  rw [hya, s.commonDeals_comm] at hykey hysum
  refine ⟨hxkey.trans hykey.symm, ?_⟩
  change x.currencies.amountIn c = -y.currencies.amountIn c
  rw [hxsum, hysum, List.sum_neg, List.map_map]
  congr 1
  apply List.map_congr_left
  intro d hd
  exact hcosts d (List.mem_of_mem_filter hd)

namespace Session

/-- Whatever transfers are added and removed, by calls, by hand or through journals, and
however much of it is undone again: of two users each has a balance with the other or none
has, in the same currencies, and what one has in a currency is exactly what the other
lacks. -/
theorem transfers_antisymmetric {steps : List (Amount × Step)}
    (hsteps : ∀ x ∈ steps, x.2.isLedger = true)
    (htransfers : ∀ x ∈ steps, ∀ e ∈ x.2.brought?, e.IsTransfer) {a b : String} (hab : a ≠ b)
    {xs ys : List Balance} (hxs : Ledger.balances (fresh.after steps).book.store a = .ok xs)
    (hys : Ledger.balances (fresh.after steps).book.store b = .ok ys) :
    ((∃ x ∈ xs, x.counterparty = b) ↔ ∃ y ∈ ys, y.counterparty = a) ∧
    ∀ x ∈ xs, x.counterparty = b → ∀ y ∈ ys, y.counterparty = a → ∀ c,
      ((x.currencies.get? c).isSome ↔ (y.currencies.get? c).isSome) ∧
      (x.inCurrency c).toInt = -(y.inCurrency c).toInt := by
  obtain ⟨r, htracks, hr⟩ : ∃ r, (fresh.after steps).Tracks r ∧ r.Of Expense.IsTransfer :=
    tracks_fresh.exists_after .empty hsteps htransfers
  have hc : (fresh.after steps).book.store.Canonical :=
    (Store.invariant_canonical.satisfies_after Store.canonical_fresh
      fun x hx => Step.isEngine_of_isLedger (hsteps x hx)).store
  have hcosts := fun d => Store.ownCost_eq_neg (d := d) htracks.book.holds hc hr.entries hab
  constructor
  · rw [Ledger.mem_balances_iff hc.toComplete hc.nodup_deals hxs,
      Ledger.mem_balances_iff hc.toComplete hc.nodup_deals hys, Store.commonDeals_comm, ne_comm]
  · intro x hx hxb y hy hya c
    exact Ledger.balances_eq_neg hc.toComplete hc.nodup_deals hxs hys hcosts hx hxb hy hya c

/-- What bob gives for it he gives in two shares. -/
def fare : Expense :=
  ⟨none, 1, "bus", 4, supper.currency, [⟨"bob", -1⟩, ⟨"alice", 4⟩, ⟨"bob", -3⟩]⟩

theorem isTransfer_fare : fare.IsTransfer where
  parties := ⟨"alice", "bob", by decide, fun u => by
    simp only [Expense.involves_iff, fare, List.exists_mem_cons_iff, List.not_mem_nil, false_and,
      exists_false, or_false, eq_comm (b := u)]
    tauto⟩
  settled := by decide

/-- The fare is paid twice; the first payment is taken back and put back again. -/
def fareSteps : List (Amount × Step) :=
  [(1, .addExpense "alice" fare none), (2, .hold "h" (.addExpense (.new fare))),
    (3, .journalPerform "h" none), (4, .hold "g" (.removeExpense (.new (Id.minted 1)))),
    (5, .journalPerform "g" (some "j")), (6, .journalRollback "j")]

theorem fares_antisymmetric : (∀ x ∈ fareSteps, x.2.isLedger = true) ∧
    (∀ x ∈ fareSteps, ∀ e ∈ x.2.brought?, e.IsTransfer) ∧ "alice" ≠ "bob" ∧
    ∃ xs ys, Ledger.balances (fresh.after fareSteps).book.store "alice" = .ok xs ∧
      Ledger.balances (fresh.after fareSteps).book.store "bob" = .ok ys ∧
      ∃ x ∈ xs, x.counterparty = "bob" ∧ (x.inCurrency fare.currency).toInt = 8 ∧
        ∃ y ∈ ys, y.counterparty = "alice" ∧
          ∀ c, (x.inCurrency c).toInt = -(y.inCurrency c).toInt := by
  have hsteps : ∀ x ∈ fareSteps, x.2.isLedger = true := by decide +kernel
  have htransfers : ∀ x ∈ fareSteps, ∀ e ∈ x.2.brought?, e.IsTransfer := by
    simp [fareSteps, Step.brought?, AddExpense.new, isTransfer_fare]
  have hab : "alice" ≠ "bob" := by decide
  obtain ⟨ys, hys⟩ : ∃ ys, Ledger.balances (fresh.after fareSteps).book.store "bob" = .ok ys :=
    exists_of_isOk (by decide +kernel)
  have hlisted : (Ledger.balances (fresh.after fareSteps).book.store "alice").map
      (·.map fun x => (x.counterparty, (x.inCurrency fare.currency).toInt)) = .ok [("bob", 8)] := by
    decide +kernel
  obtain ⟨xs, hxs⟩ : ∃ xs, Ledger.balances (fresh.after fareSteps).book.store "alice" = .ok xs := by
    cases hxs : Ledger.balances (fresh.after fareSteps).book.store "alice" with
    | error f =>
      rw [hxs] at hlisted
      cases hlisted
    | ok xs => exact ⟨xs, rfl⟩
  rw [hxs, Except.map, Except.ok.injEq] at hlisted
  obtain ⟨x, hx, heq⟩ := List.mem_map.mp (hlisted ▸ List.mem_singleton_self ("bob", (8 : Int)))
  obtain ⟨hxb, hamount⟩ := Prod.mk.inj heq
  obtain ⟨hlist, hsums⟩ := transfers_antisymmetric hsteps htransfers hab hxs hys
  obtain ⟨y, hy, hya⟩ := hlist.mp ⟨x, hx, hxb⟩
  exact ⟨hsteps, htransfers, hab, xs, ys, hxs, hys, x, hx, hxb, hamount, y, hy, hya,
    fun c => (hsums x hx hxb y hy hya c).2⟩

end Session
end FriendLedger
