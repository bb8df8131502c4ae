import FriendLedger.Proofs.Ledger.BalanceCheck
import FriendLedger.Proofs.Operation.Written
import Mathlib.Algebra.Order.BigOperators.Group.List
import Mathlib.Data.List.Perm.Basic

/-! The order of shares. A stored expense lists its shares by counterparty, and a checked
sum depends on the order: one order may leave the range where another one stays in it. Two
orders that both have a sum have the same one. All orders have it exactly when neither the
gains nor the losses leave the range, and some order has it when the exact total does not. -/

namespace FriendLedger

set_option autoImplicit false

namespace Amount

/-- What those amounts add up to that are not below zero. -/
def gains (as : List Amount) : Int := ((as.filter (0 ≤ ·.toInt)).map Int64.toInt).sum

/-- What the amounts below zero add up to. -/
def losses (as : List Amount) : Int := ((as.filter (·.toInt < 0)).map Int64.toInt).sum

variable {as bs : List Amount}

/-- Partial sums stay between the losses and the gains. -/
theorem losses_le_sum_le_gains {pre : List Amount} (h : pre <+: as) :
    losses as ≤ (pre.map Int64.toInt).sum ∧ (pre.map Int64.toInt).sum ≤ gains as := by
  induction as generalizing pre with
  | nil =>
    rw [List.prefix_nil.mp h]
    exact ⟨Int.le_refl 0, Int.le_refl 0⟩
  | cons a as ih =>
    have hcons : losses (a :: as) = min a.toInt 0 + losses as ∧
        gains (a :: as) = max a.toInt 0 + gains as := by
      by_cases ha : 0 ≤ a.toInt
      · have hle : ¬ a.toInt < 0 := Int.not_lt.mpr ha
        simp [losses, gains, ha, hle]
      · have hlt : a.toInt < 0 := Int.not_le.mp ha
        simp [losses, gains, hlt, Int.le_of_lt hlt]
    rw [hcons.1, hcons.2]
    rcases List.prefix_cons_iff.mp h with rfl | ⟨rest, rfl, hrest⟩
    · have hnil := ih List.nil_prefix
      rw [List.map_nil, List.sum_nil] at hnil ⊢
      omega
    · have hrest := ih hrest
      rw [List.map_cons, List.sum_cons]
      omega

/-- Every order has a sum exactly when the gains and the losses are amounts. -/
theorem forall_perm_sum?_isSome_iff :
    (∀ bs, bs.Perm as → (sum? bs).isSome = true) ↔ InRange (gains as) ∧ InRange (losses as) := by
  constructor
  · intro h
    have hperm : (as.filter (0 ≤ ·.toInt) ++ as.filter (·.toInt < 0)).Perm as := by
      have hsplit := List.filter_append_perm (fun a : Amount => decide (0 ≤ a.toInt)) as
      simpa only [← decide_not, Int.not_le] using hsplit
    constructor
    · exact sum?_isSome_iff.mp (h _ hperm) _ (List.prefix_append _ _)
    · exact sum?_isSome_iff.mp (h _ (List.perm_append_comm.trans hperm)) _ (List.prefix_append _ _)
  · rintro ⟨hgains, hlosses⟩ bs hbs
    rw [sum?_isSome_iff]
    intro pre hpre
    obtain ⟨hlow, hhigh⟩ := losses_le_sum_le_gains hpre
    have hlosses' : losses bs = losses as := ((hbs.filter _).map _).sum_eq
    have hgains' : gains bs = gains as := ((hbs.filter _).map _).sum_eq
    rw [hlosses'] at hlow
    rw [hgains'] at hhigh
    exact ⟨Int.le_trans hlosses.1 hlow, Int.le_trans hhigh hgains.2⟩

/-- There is an amount to go on with: one of the other sign, or any one if there is none. -/
theorem exists_mem_inRange_add {a : Amount} (hne : as ≠ [])
    (h : InRange (a.toInt + (as.map Int64.toInt).sum)) :
    ∃ b ∈ as, InRange (a.toInt + b.toInt) := by
  obtain ⟨hamin, hamax⟩ := inRange_toInt a
  by_cases hother : ∃ b ∈ as, 0 ≤ a.toInt ∧ b.toInt ≤ 0 ∨ a.toInt ≤ 0 ∧ 0 ≤ b.toInt
  · obtain ⟨b, hb, hsigns⟩ := hother
    obtain ⟨hbmin, hbmax⟩ := inRange_toInt b
    refine ⟨b, hb, ?_⟩
    unfold InRange
    omega
  · obtain ⟨b, rest, rfl⟩ := List.exists_cons_of_ne_nil hne
    -- all have the sign of `a`, so the total lies beyond the next partial sum
    have hsame : ∀ c ∈ b :: rest, (0 < a.toInt → 0 ≤ c.toInt) ∧ (a.toInt ≤ 0 → c.toInt ≤ 0) := by
      intro c hc
      by_contra hsign
      exact hother ⟨c, hc, by omega⟩
    refine ⟨b, List.mem_cons_self, ?_⟩
    rw [List.map_cons, List.sum_cons] at h
    obtain ⟨htotalmin, htotalmax⟩ := h
    have hb := hsame b List.mem_cons_self
    unfold InRange
    rcases Int.lt_or_le 0 a.toInt with hpos | hnonpos
    · have hrest : 0 ≤ (rest.map Int64.toInt).sum := by
        apply List.sum_nonneg
        intro n hn
        obtain ⟨c, hc, rfl⟩ := List.mem_map.mp hn
        exact (hsame c (List.mem_cons_of_mem b hc)).1 hpos
      have hbpos := hb.1 hpos
      omega
    · have hrest : (rest.map Int64.toInt).sum ≤ 0 := by
        have hle := List.sum_le_card_nsmul (rest.map Int64.toInt) 0 fun n hn => by
          obtain ⟨c, hc, rfl⟩ := List.mem_map.mp hn
          exact (hsame c (List.mem_cons_of_mem b hc)).2 hnonpos
        rwa [nsmul_zero] at hle
      have hbneg := hb.2 hnonpos
      omega

theorem exists_perm_foldlM_isSome {as : List Amount} {a : Amount}
    (h : InRange (a.toInt + (as.map Int64.toInt).sum)) :
    ∃ bs : List Amount, bs.Perm as ∧ (bs.foldlM add? a).isSome = true := by
  induction hn : as.length generalizing a as with
  | zero =>
    rw [List.length_eq_zero_iff.mp hn]
    exact ⟨[], .refl [], rfl⟩
  | succ n ih =>
    obtain ⟨b, hb, hrange⟩ := exists_mem_inRange_add (List.ne_nil_of_length_eq_add_one hn) h
    obtain ⟨before, after, rfl⟩ := List.append_of_mem hb
    have hc : add? a b = some (Int64.ofInt (a.toInt + b.toInt)) := if_pos hrange
    have hcint := toInt_ofInt_of_inRange hrange
    have hrest : InRange ((Int64.ofInt (a.toInt + b.toInt)).toInt +
        ((before ++ after).map Int64.toInt).sum) := by
      rw [hcint]
      simp only [List.map_append, List.map_cons, List.sum_append, List.sum_cons] at h ⊢
      rwa [Int.add_assoc, Int.add_left_comm b.toInt]
    have hlength : (before ++ after).length = n := by
      rw [List.length_append, List.length_cons] at hn
      rw [List.length_append]
      omega
    obtain ⟨bs, hbs, hsome⟩ := ih hrest hlength
    refine ⟨b :: bs, (hbs.cons b).trans List.perm_middle.symm, ?_⟩
    rw [List.foldlM_cons, hc]
    exact hsome

/-- Some order has a sum exactly when the total is an amount. -/
theorem exists_perm_sum?_isSome_iff :
    (∃ bs, bs.Perm as ∧ (sum? bs).isSome = true) ↔ InRange (as.map Int64.toInt).sum := by
  constructor
  · rintro ⟨bs, hbs, hsome⟩
    rw [← (hbs.map Int64.toInt).sum_eq]
    exact sum?_isSome_iff.mp hsome bs List.prefix_rfl
  · intro h
    exact exists_perm_foldlM_isSome (a := 0) (by simpa using h)

theorem sum?_eq_of_perm (hperm : bs.Perm as) (ha : (sum? as).isSome = true)
    (hb : (sum? bs).isSome = true) : sum? bs = sum? as := by
  obtain ⟨s, hs⟩ := Option.isSome_iff_exists.mp ha
  obtain ⟨t, ht⟩ := Option.isSome_iff_exists.mp hb
  rw [hs, ht, Option.some.injEq, ← Int64.toInt_inj, toInt_of_sum? hs, toInt_of_sum? ht]
  exact (hperm.map _).sum_eq

/-- All orders have the same outcome exactly when none has a sum or every one has it. -/
theorem forall_perm_sum?_eq_iff : (∀ bs, bs.Perm as → sum? bs = sum? as) ↔
    ¬ InRange (as.map Int64.toInt).sum ∨ InRange (gains as) ∧ InRange (losses as) := by
  rw [← forall_perm_sum?_isSome_iff, ← exists_perm_sum?_isSome_iff]
  constructor
  · intro h
    by_cases hnone : ∃ bs, bs.Perm as ∧ (sum? bs).isSome = true
    · obtain ⟨bs, hbs, hsome⟩ := hnone
      refine .inr fun cs hcs => ?_
      rw [h cs hcs, ← h bs hbs]
      exact hsome
    · exact .inl hnone
  · rintro (hnone | hall) bs hbs
    · have hfails (cs : List Amount) (hcs : cs.Perm as) : sum? cs = none := by
        rw [← Option.not_isSome_iff_eq_none]
        exact fun hsome => hnone ⟨cs, hcs, hsome⟩
      rw [hfails bs hbs, hfails as (.refl as)]
    · exact sum?_eq_of_perm hbs (hall as (.refl as)) (hall bs hbs)

end Amount

/-- Shares of different parties can be listed in one way only. -/
theorem Share.sorted_eq {shares listed : List Share} (hperm : listed.Perm shares)
    (hordered : listed.Pairwise fun a b => a.counterparty ≤ b.counterparty)
    (hn : (listed.map (·.counterparty)).Nodup) : sorted shares = listed := by
  have hsorted := stablySorted_sorted shares
  refine (hsorted.perm.trans hperm.symm).eq_of_pairwise ?_ hsorted.ordered hordered
  intro a b ha hb hab hba
  have ha : a ∈ listed := hperm.mem_iff.mpr (hsorted.perm.mem_iff.mp ha)
  exact List.inj_on_of_nodup_map hn ha hb (String.le_antisymm hab hba)

namespace Expense
variable {e e' : Expense}

def costs (e : Expense) : List Amount := e.shares.map (·.signedCost)

/-- Both questions about the shares have the same outcome, an answer or none. -/
structure SameBalance (e e' : Expense) : Prop where
  total : e.shareTotal? = e'.shareTotal?
  balanced : e.isBalanced? = e'.isBalanced?

theorem sameBalance_iff (e e' : Expense) (h : e.totalCost = e'.totalCost) :
    e.SameBalance e' ↔ Amount.sum? e.costs = Amount.sum? e'.costs := by
  constructor
  · intro hsame
    exact hsame.total
  · intro htotal
    have htotal : e.shareTotal? = e'.shareTotal? := htotal
    exact ⟨htotal, by rw [isBalanced?, isBalanced?, htotal, h]⟩

theorem sum?_costs_isSome_iff : (Amount.sum? e.costs).isSome = true ↔ e.SumsInRange :=
  Amount.sum?_isSome_iff

/-- Every order of the costs is that of some order of the shares. -/
theorem exists_shares_of_perm {as : List Amount} (h : as.Perm e.costs) :
    ∃ shares : List Share, shares.Perm e.shares ∧ as = shares.map (·.signedCost) := by
  have hcomp : Relation.Comp (fun as shares => as = List.map Share.signedCost shares) List.Perm as
      e.shares := by
    rw [List.eq_map_comp_perm]
    exact h
  obtain ⟨shares, has, hperm⟩ := hcomp
  exact ⟨shares, hperm, has⟩

/-- A sum that exists is only ever lost, so it is kept exactly when there still is one. -/
theorem sameBalance_of_perm_iff (e e' : Expense) (h : e.totalCost = e'.totalCost)
    (hperm : e.shares.Perm e'.shares) (hsums : e'.SumsInRange) : e.SameBalance e' ↔ e.SumsInRange := by
  rw [sameBalance_iff e e' h, ← sum?_costs_isSome_iff]
  rw [← sum?_costs_isSome_iff] at hsums
  constructor
  · intro heq
    rw [heq]
    exact hsums
  · exact Amount.sum?_eq_of_perm (hperm.map _) hsums

end Expense

namespace Ledger
variable {actor : String} {e : Expense} {id : Id} {j : Journal} {b : Book}

theorem involves_of_add (h : (add actor e j b).1 = .ok id) : e.involves actor = true := by
  by_contra hno
  simp [add, hno] at h

theorem sumsInRange_of_add (h : (add actor e j b).1 = .ok id) : e.SumsInRange := by
  by_contra hsums
  rw [add_of_not_sumsInRange (involves_of_add h) hsums] at h
  cases h

/-- What is added reads back under the id that was answered, in the order of the listing. -/
theorem get_of_add (hk : b.store.Keyed) (h : (add actor e j b).1 = .ok id) :
    get (add actor e j b).2.2.store actor id = .ok (e.listedAs id) := by
  have hinvolves := involves_of_add h
  rcases add_cases hk.toComplete actor e with ⟨stop, n, hrefused⟩ | ⟨hadmits, hadded⟩
  · rw [hrefused] at h
    cases h
  · rw [hadded] at h ⊢
    cases h
    have henc : (b.rowsFor e).Encodes (Id.minted b.nextId) e := Book.encodes_rowsFor
    have hid : (b.rowsFor e).deal.id = (Id.minted b.nextId).toText := by rw [henc.deal]
    have hnone : b.store.dealsAt (Id.minted b.nextId).toText = [] := by
      rw [← hid]
      exact Store.dealsAt_eq_nil_iff.mpr hadmits.deal
    have hcomplete := (hk.withExpense henc.coherent hadmits).toComplete
    rw [get, find?_eq hcomplete, Store.dealsAt_withExpense,
      Store.spendingsAt_withExpense henc.coherent, if_pos hid, if_pos hid, hnone,
      hk.spendingsAt_eq_nil hnone]
    simp only [List.nil_append, List.head?_cons, henc.decode_eq, Except.map, ok_bind,
      Expense.involves_listedAs, hinvolves, if_true]
    rfl

/-- All orders of the shares have the same outcome exactly when the total is out of range or
the gains and the losses are in it, and orders that have an answer agree in it. An expense
that was added reads back as balanced as it was exactly when the sums of its listing stay in
range; otherwise it has no total any more. -/
theorem balance_by_order (e : Expense) :
    ((∀ shares, shares.Perm e.shares → ({ e with shares := shares } : Expense).SameBalance e) ↔
      ¬ Amount.InRange (e.costs.map Int64.toInt).sum ∨
        Amount.InRange (Amount.gains e.costs) ∧ Amount.InRange (Amount.losses e.costs)) ∧
    (∀ shares, shares.Perm e.shares → e.isBalanced?.isSome = true →
      ({ e with shares := shares } : Expense).isBalanced?.isSome = true →
      ({ e with shares := shares } : Expense).SameBalance e) ∧
    ∀ (b : Book), b.store.Keyed → ∀ actor j id, (add actor e j b).1 = .ok id →
      get (add actor e j b).2.2.store actor id = .ok (e.listedAs id) ∧
      (e.listedAs id).shares.Perm e.shares ∧
      ((e.listedAs id).SameBalance e ↔ (e.listedAs id).SumsInRange) ∧
      (¬ (e.listedAs id).SumsInRange →
        (e.listedAs id).shareTotal? = none ∧ (e.listedAs id).isBalanced? = none) := by
  refine ⟨?_, fun shares hperm hold hnew => ?_, fun b hk actor j id h => ?_⟩
  · rw [← Amount.forall_perm_sum?_eq_iff]
    constructor
    · intro h as has
      obtain ⟨shares, hperm, rfl⟩ := Expense.exists_shares_of_perm has
      exact (h shares hperm).total
    · intro h shares hperm
      exact (Expense.sameBalance_iff { e with shares := shares } e rfl).mpr (h _ (hperm.map _))
  · rw [Expense.isBalanced?_isSome_iff] at hold hnew
    exact (Expense.sameBalance_of_perm_iff { e with shares := shares } e rfl hperm hold).mpr hnew
  · have hperm : (e.listedAs id).shares.Perm e.shares :=
      (Share.stablySorted_sorted e.shares).perm
    refine ⟨get_of_add hk h, hperm,
      Expense.sameBalance_of_perm_iff _ e rfl hperm (sumsInRange_of_add h), fun hlost => ?_⟩
    rw [← Expense.sum?_costs_isSome_iff, Option.not_isSome_iff_eq_none] at hlost
    have htotal : (e.listedAs id).shareTotal? = none := hlost
    exact ⟨htotal, by rw [Expense.isBalanced?, htotal]; rfl⟩

/-- An estate as large as can be, with a fee taken off and put on again. -/
def estate (shares : List Share) : Expense :=
  ⟨none, 1, "estate", 9223372036854775807, bequest.currency, shares⟩

/-- This order has a sum and so has its listing; with the two additions first there is none. -/
theorem estate_by_order :
    let e := estate [⟨"bob", 9223372036854775807⟩, ⟨"alice", -1⟩, ⟨"carol", 1⟩]
    (add "bob" e .empty .fresh).1 = .ok (Id.minted 1) ∧
      (e.listedAs (Id.minted 1)).SameBalance e ∧
      get (add "bob" e .empty .fresh).2.2.store "bob" (Id.minted 1) =
        .ok (e.listedAs (Id.minted 1)) ∧
      ¬ ∀ shares, shares.Perm e.shares → (estate shares).SameBalance e := by
  intro e
  have hadd : (add "bob" e .empty .fresh).1 = .ok (Id.minted 1) := by decide +kernel
  obtain ⟨horders, -, hstored⟩ := balance_by_order e
  obtain ⟨hget, -, hsame, -⟩ := hstored .fresh Store.keyed_fresh "bob" .empty (Id.minted 1)
    hadd
  have hlisted : (e.listedAs (Id.minted 1)).shares =
      [⟨"alice", -1⟩, ⟨"bob", 9223372036854775807⟩, ⟨"carol", 1⟩] :=
    Share.sorted_eq (by decide) (by decide) (by decide)
  refine ⟨hadd, hsame.mpr ?_, hget, fun hall => ?_⟩
  · rw [← Expense.sum?_costs_isSome_iff, Expense.costs, hlisted]
    decide +kernel
  · exact absurd (horders.mp hall) (by decide +kernel)

/-- Added with a total, which is the cost, and read back without one. -/
theorem estate_not_summed :
    let e := estate [⟨"alice", 9223372036854775807⟩, ⟨"carol", -1⟩, ⟨"bob", 1⟩]
    (add "alice" e .empty .fresh).1 = .ok (Id.minted 1) ∧
      e.shareTotal? = some 9223372036854775807 ∧ e.isBalanced? = some true ∧
      ∃ x, get (add "alice" e .empty .fresh).2.2.store "alice" (Id.minted 1) = .ok x ∧
        x.shares = [⟨"alice", 9223372036854775807⟩, ⟨"bob", 1⟩, ⟨"carol", -1⟩] ∧
        x.shareTotal? = none ∧ x.isBalanced? = none := by
  intro e
  have hadd : (add "alice" e .empty .fresh).1 = .ok (Id.minted 1) := by decide +kernel
  have hget := get_of_add Store.keyed_fresh hadd
  have hlisted : (e.listedAs (Id.minted 1)).shares =
      [⟨"alice", 9223372036854775807⟩, ⟨"bob", 1⟩, ⟨"carol", -1⟩] :=
    Share.sorted_eq (by decide) (by decide) (by decide)
  have htotal : (e.listedAs (Id.minted 1)).shareTotal? = none := by
    rw [Expense.shareTotal?, hlisted]
    decide +kernel
  refine ⟨hadd, by decide +kernel, by decide +kernel, _, hget, hlisted, htotal, ?_⟩
  rw [Expense.isBalanced?, htotal]
  rfl

end Ledger
end FriendLedger
