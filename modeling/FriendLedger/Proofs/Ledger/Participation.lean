import FriendLedger.Proofs.Ledger.Balances
import FriendLedger.Proofs.Ledger.Between
import FriendLedger.Proofs.Ledger.Reading
import FriendLedger.Proofs.Operation.Effect
import FriendLedger.Proofs.Session.Entries

/-! Reading and removing an expense, gated by participation. Which rows a table holds
tells what either call answers: there has to be a deal under the id, its currency has to be
readable and the user has to be named by one of its spendings, in this order. A removal
reads the rows twice, and both times it finds the same. -/

namespace FriendLedger

set_option autoImplicit false

/-- The expense as it is told by the rows. -/
structure Expense.ReadFrom (id : Id) (d : DealRow) (spendings : List SpendingRow) (e : Expense) :
    Prop where
  id : e.id = some id
  timestamp : e.timestamp = d.timestamp
  details : e.details = d.details
  totalCost : e.totalCost = d.cost
  currency : e.currency.code = Currency.normalize d.currency
  shares : Share.StablySorted (spendings.map SpendingRow.toShare) e.shares

/-- The stored currency is blank. -/
def DealRow.Unreadable (d : DealRow) : Prop := ∀ c ∈ d.currency.toList, Text.isBlank c = true

theorem DealRow.unreadable_iff {d : DealRow} :
    d.Unreadable ↔ Currency.ofText? d.currency = none := Currency.ofText?_eq_none_iff.symm

theorem DealRow.exists_currency {d : DealRow} (h : ¬ d.Unreadable) :
    ∃ c, Currency.ofText? d.currency = some c := by
  rw [unreadable_iff] at h
  exact Option.ne_none_iff_exists'.mp h

namespace Ledger
variable {s : Store} {b : Book} {actor : String} {id : Id} {d : DealRow} {e : Expense}

theorem involves_sorted (spendings : List SpendingRow) (user : String) (e : Expense) :
    ({ e with shares := Share.sorted (spendings.map SpendingRow.toShare) } : Expense).involves
      user = spendings.any (·.counterparty == user) := by
  rw [Bool.eq_iff_iff, Expense.involves_iff]
  simp [Share.mem_sorted_iff, SpendingRow.toShare]

/-- What a user is answered, by cases on the rows. -/
theorem get_eq (h : s.Complete) (actor : String) (id : Id) :
    get s actor id =
      match (s.dealsAt id.toText).head? with
      | none => .error (.expenseNotFound id.toText)
      | some d =>
        match Currency.ofText? d.currency with
        | none => .error (.corruptRow ("invalid stored currency " ++ Text.quoted d.currency))
        | some c =>
          if (s.spendingsAt id.toText).any (·.counterparty == actor) then
            .ok ⟨some id, d.timestamp, d.details, d.cost, c,
              Share.sorted ((s.spendingsAt id.toText).map SpendingRow.toShare)⟩
          else .error (.notYourExpense (actor ++ " holds no share of " ++ id.toText)) := by
  rw [get, find?_eq h]
  cases hd : (s.dealsAt id.toText).head? with
  | none => rfl
  | some d =>
    have hid : d.id = id.toText := (Store.mem_dealsAt_iff.mp (List.mem_of_mem_head? hd)).2
    simp only [ExpenseRows.decode, DealRow.decode, DealRow.decodeId, hid, Id.ofText?_toText,
      Currency.decode, ok_bind]
    cases Currency.ofText? d.currency with
    | none => rfl
    | some c =>
      simp only [ok_bind, pure_eq_ok, Except.map, ← involves_sorted _ actor
        ⟨some id, d.timestamp, d.details, d.cost, c, []⟩]
      rfl

/-- What a user is answered who reads the expense of an id, told by the rows alone. -/
structure Gated (s : Store) (actor : String) (id : Id) (answer : Except Failure Expense) : Prop where
  absent : answer = .error (.expenseNotFound id.toText) ↔ ∀ d ∈ s.heldDeals, d.id ≠ id.toText
  unreadable {d : DealRow} : d ∈ s.heldDeals → d.id = id.toText →
    (answer = .error (.corruptRow ("invalid stored currency " ++ Text.quoted d.currency)) ↔
      d.Unreadable)
  stranger {d : DealRow} : d ∈ s.heldDeals → d.id = id.toText → ¬ d.Unreadable →
    (answer = .error (.notYourExpense (actor ++ " holds no share of " ++ id.toText)) ↔
      ∀ p ∈ s.heldSpendings, p.dealId = id.toText → p.counterparty ≠ actor)
  party {d : DealRow} : d ∈ s.heldDeals → d.id = id.toText → ¬ d.Unreadable →
    ((∃ e : Expense, answer = .ok e ∧ e.ReadFrom id d (s.spendingsAt id.toText)) ↔
      ∃ p ∈ s.heldSpendings, p.dealId = id.toText ∧ p.counterparty = actor)

theorem head?_dealsAt (hn : (s.heldDeals.map (·.id)).Nodup) (hd : d ∈ s.heldDeals) :
    (s.dealsAt d.id).head? = some d := by
  rw [Store.dealsAt, filter_key_eq_singleton DealRow.id hn hd]
  rfl

theorem any_spendingsAt_iff : (s.spendingsAt id.toText).any (·.counterparty == actor) = true ↔
    ∃ p ∈ s.heldSpendings, p.dealId = id.toText ∧ p.counterparty = actor := by
  simp [Store.mem_spendingsAt_iff, and_assoc]

theorem gated_get (h : s.Complete) (hn : (s.heldDeals.map (·.id)).Nodup) (actor : String)
    (id : Id) : Gated s actor id (get s actor id) := by
  have hget := get_eq h actor id
  -- Under the id there is the deal `d` and no other.
  have hfound {d : DealRow} (hd : d ∈ s.heldDeals) (hid : d.id = id.toText) :
      (s.dealsAt id.toText).head? = some d := hid ▸ head?_dealsAt hn hd
  constructor
  case absent =>
    constructor
    · intro hanswer d hd hid
      rw [hfound hd hid] at hget
      rw [hget] at hanswer
      dsimp only at hanswer
      split at hanswer
      · cases hanswer
      · split at hanswer <;> cases hanswer
    · intro hnone
      rw [hget, Store.dealsAt_eq_nil_iff.mpr hnone]
      rfl
  case unreadable =>
    intro d hd hid
    rw [hget, hfound hd hid, DealRow.unreadable_iff]
    dsimp only
    cases hc : Currency.ofText? d.currency with
    | none => simp
    | some c =>
      dsimp only
      split <;> simp
  case stranger =>
    intro d hd hid hblank
    obtain ⟨c, hc⟩ := DealRow.exists_currency hblank
    rw [hget, hfound hd hid]
    simp only [hc]
    split
    · rename_i hany
      obtain ⟨p, hp, hpid, hparty⟩ := any_spendingsAt_iff.mp hany
      simp only [reduceCtorEq, false_iff]
      exact fun hnone => hnone p hp hpid hparty
    · rename_i hany
      simp only [true_iff]
      exact fun p hp hpid hparty => hany (any_spendingsAt_iff.mpr ⟨p, hp, hpid, hparty⟩)
  case party =>
    intro d hd hid hblank
    obtain ⟨c, hc⟩ := DealRow.exists_currency hblank
    rw [hget, hfound hd hid, ← any_spendingsAt_iff]
    simp only [hc]
    split
    · rename_i hany
      have hread := Currency.ofText?_eq_some_iff.mp hc
      exact ⟨fun _ => hany,
        fun _ => ⟨_, rfl, rfl, rfl, rfl, rfl, hread, Share.stablySorted_sorted _⟩⟩
    · rename_i hany
      simp [hany]

/-! ### Removing -/

/-- What taking the expense of an id out of a book leaves behind. -/
structure Removal (id : Id) (d : DealRow) (b b' : Book) : Prop where
  edges : b'.store.edges = b.store.edges
  deals : b'.store.heldDeals = b.store.heldDeals.filter (· ≠ d)
  spendings : b'.store.heldSpendings = b.store.heldSpendings.filter (·.dealId ≠ id.toText)
  complete : b'.store.Complete
  recorded : b'.store.recorded = b.store.recorded
  nextId : b'.nextId = b.nextId
  trace : b'.trace = b.trace
  gone (actor : String) : get b'.store actor id = .error (.expenseNotFound id.toText)

theorem removal_withoutExpense (h : b.store.Complete) (hn : (b.store.heldDeals.map (·.id)).Nodup)
    (hd : d ∈ b.store.heldDeals) (hid : d.id = id.toText) :
    Removal id d b { b with store := b.store.withoutExpense id.toText } where
  edges := rfl
  deals := by
    apply List.filter_congr
    intro d' hd'
    have hsame : d'.id = id.toText ↔ d' = d := by
      constructor
      · intro hid'
        exact List.inj_on_of_nodup_map hn hd' hd (hid'.trans hid.symm)
      · rintro rfl
        exact hid
    simp only [ne_eq, hsame]
  spendings := rfl
  complete := ⟨h.edges, rfl, rfl⟩
  recorded := rfl
  nextId := rfl
  trace := rfl
  gone actor := by
    have hcomplete : (b.store.withoutExpense id.toText).Complete := ⟨h.edges, rfl, rfl⟩
    rw [get_eq hcomplete, Store.dealsAt_withoutExpense, if_pos rfl]
    rfl

/-- The rows that were read are those that are taken. -/
theorem take_of_get (h : b.store.Complete) (hget : get b.store actor id = .ok e) (j : Journal) :
    ∃ d ∈ b.store.heldDeals, d.id = id.toText ∧
      take id j b = (.ok e, j.record (.removeExpense ⟨id, some ⟨d, b.store.spendingsAt id.toText⟩⟩),
        { b with store := b.store.withoutExpense id.toText }) := by
  obtain ⟨found, hfound, hget⟩ := bind_eq_ok_iff.mp hget
  rw [find?_eq h] at hfound
  cases hd : (b.store.dealsAt id.toText).head? with
  | none =>
    rw [hd] at hfound
    cases hfound
    cases hget
  | some d =>
    obtain ⟨hmem, hid⟩ := Store.mem_dealsAt_iff.mp (List.mem_of_mem_head? hd)
    rw [hd] at hfound
    dsimp only at hfound
    cases hread : (ExpenseRows.mk d (b.store.spendingsAt id.toText)).decode with
    | error f =>
      rw [hread] at hfound
      cases hfound
    | ok x =>
      rw [hread] at hfound
      cases hfound
      dsimp only at hget
      split at hget
      · cases hget
        have htake := (Operation.take_eq_ok_iff h).mpr ⟨d, hd, rfl, hread, rfl⟩
        refine ⟨d, hmem, hid, ?_⟩
        simp only [take, Journal.perform, Reversible.perform, RemoveExpense.perform,
          RemoveExpense.new, htake]
      · cases hget

/-- Reading and removing an expense are gated alike, whatever rows the tables hold. A
removal that is let through deletes the deal and its spendings, once and for all users,
and is recorded; a call that fails, and any reading, changes nothing. -/
theorem reads_and_removals (h : b.store.Complete) (hn : (b.store.heldDeals.map (·.id)).Nodup)
    (actor : String) (id : Id) (j : Journal) :
    Gated b.store actor id (get b.store actor id) ∧
    (remove actor id j b).1 = get b.store actor id ∧
    (∀ e, get b.store actor id = .ok e → ∃ d ∈ b.store.heldDeals, d.id = id.toText ∧
      (remove actor id j b).2.1 =
        j.record (.removeExpense ⟨id, some ⟨d, b.store.spendingsAt id.toText⟩⟩) ∧
      Removal id d b (remove actor id j b).2.2) ∧
    (∀ f, get b.store actor id = .error f → remove actor id j b = (.error f, j, b)) ∧
    ∀ (x : Session) (now : Amount), (x.step now (.getExpense actor id)).2 = x := by
  refine ⟨gated_get h hn actor id, ?_, ?_, ?_, fun x now => Session.step_of_isRead rfl⟩
  · cases hget : get b.store actor id with
    | error f => simp only [remove, hget]
    | ok e =>
      obtain ⟨d, -, -, htake⟩ := take_of_get h hget j
      simp only [remove, hget, htake]
  · intro e hget
    obtain ⟨d, hd, hid, htake⟩ := take_of_get h hget j
    simp only [remove, hget, htake]
    exact ⟨d, hd, hid, rfl, removal_withoutExpense h hn hd hid⟩
  · intro f hget
    simp only [remove, hget]

def tab : DealRow := ⟨(Id.minted 1).toText, 1, "tab", 5, " eur"⟩

def tip : DealRow := ⟨(Id.minted 2).toText, 2, "tip", 1, " "⟩

/-- A tab on which bob stands twice, a tip that cannot be read and a deal under a text that
no id is written in. -/
def barBook : Book :=
  ⟨⟨some [], some [tab, tip, ⟨"TAB", 3, "tea", 2, "EUR"⟩],
    some [⟨"1", (Id.minted 1).toText, 2, "bob"⟩, ⟨"2", (Id.minted 1).toText, 1, "alice"⟩,
      ⟨"3", (Id.minted 1).toText, 2, "bob"⟩, ⟨"4", (Id.minted 2).toText, 1, "bob"⟩,
      ⟨"5", "TAB", 2, "bob"⟩], true⟩, 9, []⟩

theorem tab_removed_by_bob :
    barBook.store.Complete ∧ (barBook.store.heldDeals.map (·.id)).Nodup ∧
      (remove "bob" (Id.minted 1) .empty barBook).1.isOk = true ∧
      (remove "bob" (Id.minted 1) .empty barBook).2.2.store.heldDeals =
        barBook.store.heldDeals.tail ∧
      (remove "eve" (Id.minted 1) .empty barBook).2.2 = barBook ∧
      get barBook.store "eve" (Id.minted 2) =
        .error (.corruptRow ("invalid stored currency " ++ Text.quoted tip.currency)) := by
  have hc : barBook.store.Complete := ⟨rfl, rfl, rfl⟩
  have hn : (barBook.store.heldDeals.map (·.id)).Nodup := by decide +kernel
  obtain ⟨hbob, hanswer, hremoved, -⟩ := reads_and_removals hc hn "bob" (Id.minted 1) .empty
  obtain ⟨heve, -, -, hfailed, -⟩ := reads_and_removals hc hn "eve" (Id.minted 1) .empty
  obtain ⟨htip, -⟩ := reads_and_removals hc hn "eve" (Id.minted 2) .empty
  have htab : ¬ tab.Unreadable := by
    rw [DealRow.unreadable_iff]
    decide +kernel
  obtain ⟨e, he, -⟩ := (hbob.party List.mem_cons_self rfl htab).mpr
    ⟨⟨"1", (Id.minted 1).toText, 2, "bob"⟩, List.mem_cons_self, rfl, rfl⟩
  obtain ⟨d, hd, hid, -, hremoval⟩ := hremoved e he
  have hdeal : d = tab := List.inj_on_of_nodup_map hn hd List.mem_cons_self hid
  refine ⟨hc, hn, ?_, ?_, ?_, ?_⟩
  · rw [hanswer, he]
    rfl
  · rw [hremoval.deals, hdeal]
    decide +kernel
  · rw [hfailed _ ((heve.stranger List.mem_cons_self rfl htab).mpr (by decide +kernel))]
  · have htip' : tip ∈ barBook.store.heldDeals := List.mem_cons_of_mem _ List.mem_cons_self
    refine (htip.unreadable htip' rfl).mpr (DealRow.unreadable_iff.mpr ?_)
    decide +kernel

end Ledger
end FriendLedger
