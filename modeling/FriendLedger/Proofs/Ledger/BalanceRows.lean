import FriendLedger.Proofs.Ledger.Sums
import FriendLedger.Proofs.Store.Place

/-! The rows behind a user's balances: which deals they come from, and what they sum
up to. -/

namespace FriendLedger

set_option autoImplicit false

namespace Store

def HoldsShare (s : Store) (user : String) (d : DealRow) : Prop :=
  ∃ p ∈ s.heldSpendings, p.dealId = d.id ∧ p.counterparty = user

instance (s : Store) (user : String) (d : DealRow) : Decidable (s.HoldsShare user d) :=
  inferInstanceAs (Decidable (∃ p ∈ s.heldSpendings, p.dealId = d.id ∧ p.counterparty = user))

/-- The deals in which both users have a part, each once. -/
def commonDeals (s : Store) (a b : String) : List DealRow :=
  s.heldDeals.filter fun d => s.HoldsShare a d ∧ s.HoldsShare b d

/-- The exact sum of the user's spendings of the deal. -/
def ownCost (s : Store) (user : String) (d : DealRow) : Int :=
  ((s.heldSpendings.filter fun p => p.counterparty = user && p.dealId = d.id).map
    (·.cost.toInt)).sum

end Store

namespace Ledger

theorem mem_dealsOf_iff {rows : List SpendingRow} {user id : String} :
    id ∈ dealsOf rows user ↔ ∃ p ∈ rows, p.counterparty = user ∧ p.dealId = id := by
  simp [dealsOf, Roster.mem_ofList_iff, and_assoc]

theorem mem_othersIn_iff {rows : List SpendingRow} {user id other : String} :
    other ∈ othersIn rows user id ↔
      other ≠ user ∧ ∃ p ∈ rows, p.dealId = id ∧ p.counterparty = other := by
  simp only [othersIn, Roster.mem_ofList_iff, List.mem_map, List.mem_filter, Bool.and_eq_true,
    decide_eq_true_eq]
  constructor
  · rintro ⟨p, ⟨hp, hid, hne⟩, rfl⟩
    exact ⟨hne, p, hp, hid, rfl⟩
  · rintro ⟨hne, p, hp, hid, rfl⟩
    exact ⟨p, ⟨hp, hid, hne⟩, rfl⟩

def matched (deals : List DealRow) : List (String × Amount) → List (DealRow × Amount)
  | [] => []
  | m :: mine =>
    match deals.find? (·.id = m.1) with
    | some d => (d, m.2) :: matched deals mine
    | none => matched deals mine

theorem filter_entries_of_deal (user other : String) (rows : List SpendingRow) (id currency : String)
    (amount : Amount) :
    ((othersIn rows user id).map fun o => (⟨o, currency, amount⟩ : Entry)).filter
        (·.counterparty = other) =
      if other ∈ othersIn rows user id then [⟨other, currency, amount⟩] else [] := by
  rw [List.filter_map]
  split
  · rename_i hmem
    have hnodup : ((othersIn rows user id).map fun o => o).Nodup := by
      rw [List.map_id']
      exact Roster.nodup_ofList _
    have hone : (othersIn rows user id).filter (fun o => decide (o = other)) = [other] :=
      filter_key_eq_singleton (fun o => o) hnodup hmem
    exact congrArg (List.map fun o => (⟨o, currency, amount⟩ : Entry)) hone
  · rename_i hmem
    rw [List.map_eq_nil_iff, List.filter_eq_nil_iff]
    intro o ho heq
    simp only [Function.comp_apply, decide_eq_true_eq] at heq
    exact hmem (heq ▸ ho)

/-- The entries of one counterparty: one for every deal of the totals in which this
counterparty has a part. -/
theorem filter_entriesOf (deals : List DealRow) (rows : List SpendingRow) (user other : String)
    (mine : List (String × Amount)) :
    (entriesOf deals rows user mine).filter (·.counterparty = other) =
      ((matched deals mine).filter fun x => other ∈ othersIn rows user x.1.id).map
        fun x => ⟨other, x.1.currency, x.2⟩ := by
  induction mine with
  | nil => rfl
  | cons m mine ih =>
    rw [entriesOf, List.flatMap_cons, List.filter_append, ← entriesOf, ih, matched]
    cases hd : deals.find? (·.id = m.1) with
    | none => rfl
    | some d =>
      have hid : d.id = m.1 := by simpa using List.find?_some hd
      simp only [filter_entries_of_deal, List.filter_cons, hid, decide_eq_true_eq]
      split <;> rfl

variable {s : Store} {user other : String} {mine : List (String × Amount)}

theorem totalsByDeal_eq_ok {rows : List SpendingRow} (h : totalsByDeal rows user = .ok mine) :
    mine.map (·.1) = dealsOf rows user ∧
      ∀ m ∈ mine, m.2.toInt = ((costsIn rows user m.1).map Int64.toInt).sum := by
  obtain ⟨hkeys, hvalues⟩ := mapM_pair_eq_ok h
  exact ⟨hkeys, fun m hm => toInt_of_total (hvalues m hm)⟩

theorem find?_deal_eq_some_iff {deals : List DealRow} (hn : (deals.map (·.id)).Nodup) {id : String}
    {d : DealRow} : deals.find? (·.id = id) = some d ↔ d ∈ deals ∧ d.id = id := by
  constructor
  · intro h
    exact ⟨List.mem_of_find?_eq_some h, by simpa using List.find?_some h⟩
  · rintro ⟨hd, rfl⟩
    have hone := congrArg List.head? (filter_key_eq_singleton DealRow.id hn hd)
    rw [List.head?_filter] at hone
    exact hone

theorem mem_matched_iff {deals : List DealRow} (hn : (deals.map (·.id)).Nodup)
    {x : DealRow × Amount} : x ∈ matched deals mine ↔ x.1 ∈ deals ∧ (x.1.id, x.2) ∈ mine := by
  induction mine with
  | nil => simp [matched]
  | cons m mine ih =>
    rw [matched, List.mem_cons]
    cases hd : deals.find? (·.id = m.1) with
    | none =>
      rw [ih]
      refine and_congr_right fun hx => ?_
      rw [List.find?_eq_none] at hd
      have hne : (x.1.id, x.2) ≠ m := fun heq => by simpa [← heq] using hd x.1 hx
      simp [hne]
    | some d =>
      obtain ⟨hmem, hid⟩ := (find?_deal_eq_some_iff hn).mp hd
      rw [List.mem_cons, ih]
      constructor
      · rintro (rfl | ⟨hx, hm⟩)
        · exact ⟨hmem, .inl (by rw [hid])⟩
        · exact ⟨hx, .inr hm⟩
      · rintro ⟨hx, rfl | hm⟩
        · exact .inl (Prod.ext (Option.some.inj (hd ▸ (find?_deal_eq_some_iff hn).mpr ⟨hx, rfl⟩)).symm rfl)
        · exact .inr ⟨hx, hm⟩

theorem nodup_matched {deals : List DealRow} (hm : (mine.map (·.1)).Nodup) :
    ((matched deals mine).map (·.1)).Nodup := by
  have hsub : List.Sublist ((matched deals mine).map (·.1.id)) (mine.map (·.1)) := by
    clear hm
    induction mine with
    | nil => exact .slnil
    | cons m mine ih =>
      rw [matched, List.map_cons]
      cases hd : deals.find? (·.id = m.1) with
      | none => exact ih.cons _
      | some d =>
        have hid : d.id = m.1 := by simpa using List.find?_some hd
        rw [← hid]
        exact ih.cons_cons _
  refine List.Nodup.of_map DealRow.id ?_
  rw [List.map_map]
  exact hm.sublist hsub

/-- The totals are found for the deals of the user, each once. -/
theorem perm_matched (hn : (s.heldDeals.map (·.id)).Nodup)
    (h : mine.map (·.1) = dealsOf s.heldSpendings user) :
    ((matched s.heldDeals mine).map (·.1)).Perm (s.heldDeals.filter (s.HoldsShare user)) := by
  have hmine : (mine.map (·.1)).Nodup := h ▸ Roster.nodup_ofList _
  rw [List.perm_ext_iff_of_nodup (nodup_matched hmine) (hn.of_map.filter _)]
  intro d
  have hkey : (∃ a, (d.id, a) ∈ mine) ↔ d.id ∈ mine.map (·.1) := by simp
  have hdeal : d ∈ (matched s.heldDeals mine).map (·.1) ↔ d ∈ s.heldDeals ∧ ∃ a, (d.id, a) ∈ mine := by
    simp [mem_matched_iff hn]
  rw [hdeal, hkey, h, mem_dealsOf_iff, List.mem_filter, decide_eq_true_eq]
  refine and_congr_right fun _ => ?_
  exact ⟨fun ⟨p, hp, hu, hid⟩ => ⟨p, hp, hid, hu⟩, fun ⟨p, hp, hid, hu⟩ => ⟨p, hp, hu, hid⟩⟩

theorem mem_othersIn_iff_holdsShare {d : DealRow} :
    other ∈ othersIn s.heldSpendings user d.id ↔ other ≠ user ∧ s.HoldsShare other d :=
  mem_othersIn_iff

/-- The entries of a counterparty come from the deals in which both have a part. -/
theorem perm_commonDeals (hn : (s.heldDeals.map (·.id)).Nodup)
    (h : mine.map (·.1) = dealsOf s.heldSpendings user) (hne : other ≠ user) :
    (((matched s.heldDeals mine).filter fun x =>
      other ∈ othersIn s.heldSpendings user x.1.id).map (·.1)).Perm (s.commonDeals user other) := by
  have hfilter : ((matched s.heldDeals mine).filter fun x =>
      other ∈ othersIn s.heldSpendings user x.1.id).map (·.1) =
        ((matched s.heldDeals mine).map (·.1)).filter fun d => s.HoldsShare other d := by
    rw [List.filter_map]
    congr 1
    apply List.filter_congr
    intro x _
    simp [mem_othersIn_iff_holdsShare, hne]
  have hcommon : s.commonDeals user other =
      (s.heldDeals.filter (s.HoldsShare user)).filter fun d => s.HoldsShare other d := by
    rw [Store.commonDeals, List.filter_filter]
    apply List.filter_congr
    intro d _
    rw [Bool.decide_and, Bool.and_comm]
  rw [hfilter, hcommon]
  exact (perm_matched hn h).filter _

section Entries
variable (hn : (s.heldDeals.map (·.id)).Nodup) (h : totalsByDeal s.heldSpendings user = .ok mine)
include hn h

/-- Whatever the deals are selected by, the amounts add up to the user's own costs. -/
theorem sum_entriesOf (hne : other ≠ user) (q : String → Bool) :
    ((((entriesOf s.heldDeals s.heldSpendings user mine).filter (·.counterparty = other)).filter
      (q ·.currency)).map (·.amount.toInt)).sum =
        (((s.commonDeals user other).filter (q ·.currency)).map (s.ownCost user)).sum := by
  obtain ⟨hkeys, htotals⟩ := totalsByDeal_eq_ok h
  have hperm := ((perm_commonDeals hn hkeys hne).filter (q ·.currency)).map (s.ownCost user)
  rw [filter_entriesOf, List.filter_map, List.map_map, ← hperm.sum_eq, List.filter_map, List.map_map]
  congr 1
  apply List.map_congr_left
  intro x hx
  have hx := (mem_matched_iff hn).mp (List.mem_of_mem_filter (List.mem_of_mem_filter hx))
  have htotal := htotals _ hx.2
  simpa [costsIn, Store.ownCost, Function.comp_def] using htotal

theorem mem_entriesOf_iff {currency : String} :
    (∃ e ∈ entriesOf s.heldDeals s.heldSpendings user mine,
      e.counterparty = other ∧ e.currency = currency) ↔
        other ≠ user ∧ ∃ d ∈ s.commonDeals user other, d.currency = currency := by
  obtain ⟨hkeys, -⟩ := totalsByDeal_eq_ok h
  have hown : (∃ e ∈ entriesOf s.heldDeals s.heldSpendings user mine,
      e.counterparty = other ∧ e.currency = currency) ↔
        ∃ e ∈ (entriesOf s.heldDeals s.heldSpendings user mine).filter (·.counterparty = other),
          e.currency = currency := by
    simp [and_assoc]
  rw [hown, filter_entriesOf]
  by_cases hne : other = user
  · have hnone (id : String) : user ∉ othersIn s.heldSpendings user id :=
      fun hmem => (mem_othersIn_iff.mp hmem).1 rfl
    simp [hnone, hne]
  · have hdeal (d : DealRow) := (perm_commonDeals hn hkeys hne).mem_iff (a := d)
    simp only [← hdeal, List.mem_map, hne, ne_eq, not_false_eq_true, true_and]
    constructor
    · rintro ⟨_, ⟨x, hx, rfl⟩, rfl⟩
      exact ⟨x.1, ⟨x, hx, rfl⟩, rfl⟩
    · rintro ⟨_, ⟨x, hx, rfl⟩, rfl⟩
      exact ⟨_, ⟨x, hx, rfl⟩, rfl⟩

end Entries

/-- The groups of a counterparty, one for every stored currency, and their exact sums. -/
theorem groupsOf_eq_ok {entries : List Entry} {groups : List (String × Amount)}
    (h : groupsOf entries other = .ok groups) :
    (∀ k, (∃ g ∈ groups, g.1 = k) ↔ ∃ e ∈ entries, e.counterparty = other ∧ e.currency = k) ∧
      ∀ q : String → Bool, ((groups.filter (q ·.1)).map (·.2.toInt)).sum =
        (((entries.filter (·.counterparty = other)).filter (q ·.currency)).map
          (·.amount.toInt)).sum := by
  obtain ⟨hkeys, hvalues⟩ := mapM_pair_eq_ok h
  generalize hown : entries.filter (·.counterparty = other) = own at hkeys hvalues
  constructor
  · intro k
    have hmem : k ∈ groups.map (·.1) ↔ ∃ e ∈ own, e.currency = k := by
      rw [hkeys, Roster.mem_ofList_iff, List.mem_map]
    rw [List.mem_map] at hmem
    rw [hmem, ← hown]
    simp [and_assoc]
  · intro q
    have hvalue (g : String × Amount) (hg : g ∈ groups.filter (q ·.1)) : g.2.toInt =
        (((own.filter (q ·.currency)).filter (·.currency = g.1)).map (·.amount.toInt)).sum := by
      obtain ⟨hg, hq⟩ := List.mem_filter.mp hg
      rw [toInt_of_total (hvalues g hg), List.map_map, List.filter_filter]
      congr 2
      apply List.filter_congr
      intro e _
      by_cases he : e.currency = g.1 <;> simp [he, hq]
    have hgroups : (groups.filter (q ·.1)).map (·.2.toInt) =
        ((Roster.ofList (own.map (·.currency))).filter q).map fun k =>
          (((own.filter (q ·.currency)).filter (·.currency = k)).map (·.amount.toInt)).sum := by
      rw [List.map_congr_left hvalue, ← hkeys, List.filter_map, List.map_map]
      rfl
    rw [hgroups]
    refine sum_by_key Entry.currency (fun e => e.amount.toInt) ((Roster.nodup_ofList _).filter q) fun e he => ?_
    obtain ⟨he, hq⟩ := List.mem_filter.mp he
    exact List.mem_filter.mpr ⟨(Roster.mem_ofList_iff _ _).mpr (List.mem_map.mpr ⟨e, he, rfl⟩), hq⟩

end Ledger
end FriendLedger
