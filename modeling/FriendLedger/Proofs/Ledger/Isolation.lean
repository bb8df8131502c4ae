import FriendLedger.Proofs.Ledger.Between
import FriendLedger.Proofs.Operation.Filled

/-! What two users see of each other beside expenses that are not common to them. The
sums are taken over all that either user spends before they are joined, so that such
an expense is told from the answer exactly when it makes a sum leave the range. In
every other case it might as well not be there. -/

namespace FriendLedger

set_option autoImplicit false

namespace Store

/-- Both users hold a share of what is stored under the id. -/
def BothHold (s : Store) (a b id : String) : Prop :=
  (∃ p ∈ s.heldSpendings, p.counterparty = a ∧ p.dealId = id) ∧
    ∃ p ∈ s.heldSpendings, p.counterparty = b ∧ p.dealId = id

instance (s : Store) (a b id : String) : Decidable (s.BothHold a b id) :=
  inferInstanceAs (Decidable (_ ∧ _))

/-- Two stores that differ by one expense, which was added to the smaller one or is
removed from the larger one. -/
inductive Extends (s t : Store) (id : String) : Prop
  | added (rows : ExpenseRows) (keyed : s.filled.Keyed) (coherent : rows.Coherent)
    (id_eq : rows.deal.id = id) (inserted : s.insertExpense rows = .ok t)
  | removed (deleted : t.deleteExpense id = .ok s)

variable {s t : Store} {id : String}

theorem dealRows_of_isSome (h : s.deals.isSome) : s.dealRows = .ok s.heldDeals := by
  obtain ⟨rows, hrows⟩ := Option.isSome_iff_exists.mp h
  rw [dealRows, heldDeals, hrows]
  rfl

theorem spendingRows_of_isSome (h : s.spendings.isSome) : s.spendingRows = .ok s.heldSpendings := by
  obtain ⟨rows, hrows⟩ := Option.isSome_iff_exists.mp h
  rw [spendingRows, heldSpendings, hrows]
  rfl

/-- Both have a table of deals, as the statement needs it, and the smaller store holds the
rows of all other deals. -/
theorem Extends.rows (h : Extends s t id) : s.deals.isSome ∧ s.SameTables t ∧
    s.heldDeals = t.heldDeals.filter (·.id ≠ id) ∧
      s.heldSpendings = t.heldSpendings.filter (·.dealId ≠ id) := by
  cases h with
  | added rows keyed coherent id_eq inserted =>
    subst id_eq
    obtain ⟨hfilled, htables⟩ := insertExpense_filled inserted
    obtain ⟨hadmits, ht⟩ := (s.complete_filled.insertExpense_eq_ok_iff coherent).mp hfilled
    refine ⟨?_, htables, ?_, ?_⟩
    · obtain ⟨u, hdeal, -⟩ := bind_eq_ok_iff.mp inserted
      obtain ⟨deals, hdeals, -⟩ := bind_eq_ok_iff.mp hdeal
      rw [(dealRows_filled hdeals).1]
      rfl
    · rw [← heldDeals_filled t, ht, heldDeals_withExpense, List.filter_append,
        List.filter_eq_self.mpr, List.filter_eq_nil_iff.mpr, List.append_nil, heldDeals_filled]
      · intro d hd
        simp [List.mem_singleton.mp hd]
      · intro d hd
        exact decide_eq_true (hadmits.deal d hd)
    · rw [← heldSpendings_filled t, ht, heldSpendings_withExpense, List.filter_append,
        List.filter_eq_self.mpr, List.filter_eq_nil_iff.mpr, List.append_nil, heldSpendings_filled]
      · intro p hp
        simp [coherent p hp]
      · intro p hp
        obtain ⟨d, hd, hid⟩ := keyed.refers p hp
        apply decide_eq_true
        rw [← hid]
        exact hadmits.deal d hd
  | removed deleted =>
    obtain ⟨hfilled, htables⟩ := deleteExpense_filled deleted
    rw [t.complete_filled.deleteExpense_eq, Except.ok.injEq] at hfilled
    refine ⟨?_, htables.symm, ?_, ?_⟩
    · obtain ⟨spendings, -, hrest⟩ := bind_eq_ok_iff.mp deleted
      obtain ⟨deals, -, hs⟩ := bind_eq_ok_iff.mp hrest
      cases hs
      rfl
    · rw [← heldDeals_filled s, ← hfilled, heldDeals_withoutExpense, heldDeals_filled]
    · rw [← heldSpendings_filled s, ← hfilled, heldSpendings_withoutExpense, heldSpendings_filled]

end Store

namespace Ledger

/-! ### Sums out of range -/

/-- Whether the user's spendings of some deal do not sum up. -/
def overflows (rows : List SpendingRow) (user : String) : Bool :=
  (dealsOf rows user).any fun id => (Amount.sum? (costsIn rows user id)).isNone

/-- Whether the store fails to take the sums of the two users. Those of the second one
are taken only if the first one has spendings. -/
def pairOverflows (s : Store) (a b : String) : Bool :=
  overflows s.heldSpendings a || !(dealsOf s.heldSpendings a).isEmpty && overflows s.heldSpendings b

/-- The sums of a user who has no sum out of range. -/
def totals (rows : List SpendingRow) (user : String) : List (String × Amount) :=
  (dealsOf rows user).map fun id => (id, (Amount.sum? (costsIn rows user id)).getD 0)

section Rows
variable {rows : List SpendingRow} {user id id' : String}

theorem totalsByDeal_eq (rows : List SpendingRow) (user : String) : totalsByDeal rows user =
    if overflows rows user then .error .sumOutOfRange else .ok (totals rows user) := by
  unfold totalsByDeal overflows totals
  induction dealsOf rows user with
  | nil => rfl
  | cons id ids ih =>
    rw [List.mapM_cons, ih, total]
    cases hsum : Amount.sum? (costsIn rows user id) with
    | none => simp [hsum]
    | some x =>
      rw [List.any_cons, hsum, List.map_cons, hsum]
      by_cases hany : ids.any (fun id => (Amount.sum? (costsIn rows user id)).isNone) = true
      · simp [hany]
      · simp [hany]

theorem overflows_iff : overflows rows user = true ↔
    ∃ id, id ∈ dealsOf rows user ∧ Amount.sum? (costsIn rows user id) = none := by
  simp [overflows]

theorem lookup_totals : (totals rows user).lookup id =
    if id ∈ dealsOf rows user then some ((Amount.sum? (costsIn rows user id)).getD 0) else none := by
  unfold totals
  split
  · rename_i hmem
    exact List.lookup_graph _ hmem
  · rename_i hmem
    rw [List.lookup_eq_none_iff]
    rintro ⟨id', x⟩ hx
    obtain ⟨id', hid', heq⟩ := List.mem_map.mp hx
    cases heq
    apply bne_iff_ne.mpr
    rintro rfl
    exact hmem hid'

theorem lookup_totals_eq_none (h : ¬ ∃ p ∈ rows, p.counterparty = user ∧ p.dealId = id) :
    (totals rows user).lookup id = none := by
  rw [lookup_totals]
  exact if_neg fun hmem => h (mem_dealsOf_iff.mp hmem)

/-! ### Without one deal -/

theorem mem_dealsOf_filter : id' ∈ dealsOf (rows.filter (·.dealId ≠ id)) user ↔
    id' ∈ dealsOf rows user ∧ id' ≠ id := by
  simp only [mem_dealsOf_iff, List.mem_filter, decide_eq_true_eq]
  constructor
  · rintro ⟨p, ⟨hp, hne⟩, hparty, rfl⟩
    exact ⟨⟨p, hp, hparty, rfl⟩, hne⟩
  · rintro ⟨⟨p, hp, hparty, rfl⟩, hne⟩
    exact ⟨p, ⟨hp, hne⟩, hparty, rfl⟩

theorem costsIn_filter (hne : id' ≠ id) :
    costsIn (rows.filter (·.dealId ≠ id)) user id' = costsIn rows user id' := by
  unfold costsIn
  rw [List.filter_filter]
  congr 1
  apply List.filter_congr
  intro p _
  by_cases hid : p.dealId = id'
  · simp [hid, hne]
  · simp [hid]

theorem lookup_totals_filter (hne : id' ≠ id) :
    (totals (rows.filter (·.dealId ≠ id)) user).lookup id' = (totals rows user).lookup id' := by
  rw [lookup_totals, lookup_totals, costsIn_filter hne]
  by_cases hmem : id' ∈ dealsOf rows user
  · rw [if_pos (mem_dealsOf_filter.mpr ⟨hmem, hne⟩), if_pos hmem]
  · rw [if_neg fun h => hmem (mem_dealsOf_filter.mp h).1, if_neg hmem]

theorem overflows_of_filter (h : overflows (rows.filter (·.dealId ≠ id)) user = true) :
    overflows rows user = true := by
  obtain ⟨id', hmem, hsum⟩ := overflows_iff.mp h
  obtain ⟨hmem, hne⟩ := mem_dealsOf_filter.mp hmem
  rw [costsIn_filter hne] at hsum
  exact overflows_iff.mpr ⟨id', hmem, hsum⟩

end Rows

variable {s t : Store} {a b id : String}

theorem pairOverflows_iff : pairOverflows s a b = true ↔ overflows s.heldSpendings a = true ∨
    (∃ id, id ∈ dealsOf s.heldSpendings a) ∧ overflows s.heldSpendings b = true := by
  simp [pairOverflows, List.eq_nil_iff_forall_not_mem]

/-- A sum that is out of range in the smaller store is so in the larger one. -/
theorem pairOverflows_of_filter (h : s.heldSpendings = t.heldSpendings.filter (·.dealId ≠ id))
    (hs : pairOverflows s a b = true) : pairOverflows t a b = true := by
  rw [pairOverflows_iff, h] at hs
  rw [pairOverflows_iff]
  rcases hs with hfirst | ⟨⟨id', hid'⟩, hsecond⟩
  · exact .inl (overflows_of_filter hfirst)
  · exact .inr ⟨⟨id', (mem_dealsOf_filter.mp hid').1⟩, overflows_of_filter hsecond⟩

/-- A deal in which one of the two has no part joins with nothing. -/
theorem joinPair_filter (hcommon : ¬ t.BothHold a b id) :
    joinPair (t.heldDeals.filter (·.id ≠ id))
        (totals (t.heldSpendings.filter (·.dealId ≠ id)) a)
        (totals (t.heldSpendings.filter (·.dealId ≠ id)) b) =
      joinPair t.heldDeals (totals t.heldSpendings a) (totals t.heldSpendings b) := by
  unfold joinPair
  rw [List.filterMap_filter]
  apply List.filterMap_congr
  intro d _
  by_cases hid : d.id = id
  · have hmissing : (totals t.heldSpendings a).lookup d.id = none ∨
        (totals t.heldSpendings b).lookup d.id = none := by
      rw [hid]
      by_cases hfirst : ∃ p ∈ t.heldSpendings, p.counterparty = a ∧ p.dealId = id
      · exact .inr (lookup_totals_eq_none fun hsecond => hcommon ⟨hfirst, hsecond⟩)
      · exact .inl (lookup_totals_eq_none hfirst)
    rw [if_neg (by simp [hid])]
    rcases hmissing with hnone | hnone
    · rw [hnone]
    · rw [hnone]
      cases (totals t.heldSpendings a).lookup d.id <;> rfl
  · rw [if_pos (decide_eq_true hid), lookup_totals_filter hid, lookup_totals_filter hid]

theorem pairRows_eq (hdeals : s.dealRows = .ok s.heldDeals)
    (hspendings : s.spendingRows = .ok s.heldSpendings) : pairRows s a b =
      if pairOverflows s a b then .error .sumOutOfRange
      else .ok ((joinPair s.heldDeals (totals s.heldSpendings a)
        (totals s.heldSpendings b)).mergeSort PairRow.listedBefore) := by
  unfold pairRows pairOverflows
  rw [hdeals, hspendings, ok_bind, ok_bind, totalsByDeal_eq, totalsByDeal_eq]
  by_cases hfirst : overflows s.heldSpendings a = true
  · simp [hfirst]
  · by_cases hempty : (dealsOf s.heldSpendings a).isEmpty = true
    · have hnil : totals s.heldSpendings a = [] := by
        rw [totals, List.isEmpty_iff.mp hempty]
        rfl
      simp [hfirst, hempty, hnil, joinPair_nil]
    · have hne : totals s.heldSpendings a ≠ [] := by
        intro hnil
        exact hempty (List.isEmpty_iff.mpr (List.map_eq_nil_iff.mp hnil))
      by_cases hsecond : overflows s.heldSpendings b = true
      · simp [hfirst, hempty, hne, hsecond]
      · simp [hfirst, hempty, hne, hsecond]

/-- Rows that cannot be read are no fault of the store. -/
theorem decode_ne_database (r : PairRow) :
    ErrorsIn (fun f => ∀ fault, f ≠ .database fault) (r.decode a b) := by
  intro f hf fault
  unfold PairRow.decode at hf
  have hfault := DealRow.decode_eq_error_iff.mp hf
  unfold DealRow.fault? at hfault
  rintro rfl
  split at hfault <;> cases hfault

/-- The answer while the two tables are there. -/
theorem between_eq_database_iff (hdeals : s.dealRows = .ok s.heldDeals)
    (hspendings : s.spendingRows = .ok s.heldSpendings) :
    between s a b = .error (.database .sumOutOfRange) ↔ pairOverflows s a b = true := by
  unfold between
  rw [pairRows_eq hdeals hspendings]
  split
  · rename_i hover
    exact ⟨fun _ => hover, fun _ => rfl⟩
  · rename_i hover
    constructor
    · intro h
      exact absurd rfl ((ErrorsIn.mapM decode_ne_database _) _ h .sumOutOfRange)
    · intro h
      exact absurd h hover

/-- Adding or removing an expense in which the two do not both hold a share leaves what one
of them sees of the other as it is, unless a sum leaves the range with it that did not
before. Then the answer of the larger store is the fault of that sum. -/
theorem between_eq_iff (h : s.Extends t id) (hcommon : ¬ t.BothHold a b id) :
    (between t a b = between s a b ↔ (pairOverflows t a b = true → pairOverflows s a b = true)) ∧
      (pairOverflows t a b = true → between t a b = .error (.database .sumOutOfRange)) := by
  obtain ⟨hpresent, htables, hdeals, hspendings⟩ := h.rows
  have hsmaller := Store.dealRows_of_isSome hpresent
  have hlarger := Store.dealRows_of_isSome (htables.deals ▸ hpresent)
  cases hrows : t.spendings.isSome with
  | false =>
    -- without the table of spendings nothing is summed, and neither store has an answer
    have hs : s.spendings = none := Option.not_isSome_iff_eq_none.mp (by rw [htables.spendings, hrows]; simp)
    have ht : t.spendings = none := Option.not_isSome_iff_eq_none.mp (by rw [hrows]; simp)
    have hnever : pairOverflows t a b = false := by
      rw [pairOverflows, Store.heldSpendings, ht]
      rfl
    have hsame : between t a b = between s a b := by
      unfold between pairRows
      rw [hlarger, hsmaller, Store.spendingRows, Store.spendingRows, hs, ht]
      rfl
    rw [hnever]
    exact ⟨iff_of_true hsame Bool.noConfusion, Bool.noConfusion⟩
  | true =>
    have hts := Store.spendingRows_of_isSome hrows
    have hss := Store.spendingRows_of_isSome (htables.spendings.trans hrows)
    have hdatabase := between_eq_database_iff (a := a) (b := b) hsmaller hss
    have hdatabase' := between_eq_database_iff (a := a) (b := b) hlarger hts
    refine ⟨⟨?_, ?_⟩, hdatabase'.mpr⟩
    · intro hsame hover
      rw [← hdatabase, ← hsame, hdatabase']
      exact hover
    · intro hkept
      by_cases hover : pairOverflows t a b = true
      · rw [hdatabase'.mpr hover, hdatabase.mpr (hkept hover)]
      · have hover' : ¬ pairOverflows s a b = true :=
          fun hs => hover (pairOverflows_of_filter hspendings hs)
        unfold between
        rw [pairRows_eq hlarger hts, pairRows_eq hsmaller hss, if_neg hover, if_neg hover', hdeals,
          hspendings, joinPair_filter hcommon]

/-- Alice and bob had lunch. -/
def lunchStore : Store :=
  ⟨some [], some [⟨(Id.minted 1).toText, 5, "lunch", 1, "EUR"⟩],
    some [⟨"1", (Id.minted 1).toText, 1, "alice"⟩, ⟨"2", (Id.minted 1).toText, -1, "bob"⟩], true⟩

/-- A matter of bob and carol alone, of which bob holds two shares. -/
def loan (rest : Amount) : ExpenseRows :=
  ⟨⟨(Id.minted 2).toText, 6, "loan", rest, "EUR"⟩,
    [⟨"3", (Id.minted 2).toText, 9223372036854775807, "bob"⟩,
      ⟨"4", (Id.minted 2).toText, -9223372036854775807, "carol"⟩,
      ⟨"5", (Id.minted 2).toText, rest, "bob"⟩]⟩

theorem extends_lunch_with {rows : ExpenseRows} (hid : rows.deal.id = (Id.minted 2).toText)
    (hcoherent : rows.Coherent) (hn : (rows.spendings.map (·.id)).Nodup)
    (hnew : ∀ p ∈ rows.spendings, "1" ≠ p.id ∧ "2" ≠ p.id) :
    lunchStore.Extends (lunchStore.withExpense rows) (Id.minted 2).toText := by
  have hc : lunchStore.Complete := ⟨rfl, rfl, rfl⟩
  have hdiffer : (Id.minted 1).toText ≠ (Id.minted 2).toText := by decide +kernel
  refine .added rows ⟨hc, List.nodup_nil, by decide, by decide, by decide⟩ hcoherent hid ?_
  rw [hc.insertExpense_eq_ok_iff hcoherent]
  refine ⟨⟨?_, hn, ?_⟩, rfl⟩
  · intro d hd
    rw [List.mem_singleton.mp hd, hid]
    exact hdiffer
  · intro p hp
    simpa [lunchStore, Store.heldSpendings] using hnew p hp

theorem extends_lunch (rest : Amount) :
    lunchStore.Extends (lunchStore.withExpense (loan rest)) (Id.minted 2).toText :=
  extends_lunch_with rfl (by simp [ExpenseRows.Coherent, loan])
    (by decide : ["3", "4", "5"].Nodup) (by simp [loan])

theorem between_kept_beside_loan :
    lunchStore.Extends (lunchStore.withExpense (loan 0)) (Id.minted 2).toText ∧
      ¬ (lunchStore.withExpense (loan 0)).BothHold "alice" "bob" (Id.minted 2).toText ∧
      between (lunchStore.withExpense (loan 0)) "alice" "bob" = between lunchStore "alice" "bob" := by
  have hcommon : ¬ (lunchStore.withExpense (loan 0)).BothHold "alice" "bob" (Id.minted 2).toText := by
    decide +kernel
  obtain ⟨hkept, -⟩ := between_eq_iff (extends_lunch 0) hcommon
  have hover : pairOverflows (lunchStore.withExpense (loan 0)) "alice" "bob" = false := by
    decide +kernel
  refine ⟨extends_lunch 0, hcommon, hkept.mpr ?_⟩
  rw [hover]
  exact Bool.noConfusion

/-- What alice sees of bob breaks when bob and carol share an expense. -/
theorem between_broken_by_loan :
    lunchStore.Extends (lunchStore.withExpense (loan 1)) (Id.minted 2).toText ∧
      ¬ (lunchStore.withExpense (loan 1)).BothHold "alice" "bob" (Id.minted 2).toText ∧
      (between lunchStore "alice" "bob").isOk = true ∧
      between (lunchStore.withExpense (loan 1)) "alice" "bob" =
        .error (.database .sumOutOfRange) := by
  refine ⟨extends_lunch 1, ?_, ?_, ?_⟩
  · decide +kernel
  · decide +kernel
  · decide +kernel

end Ledger
end FriendLedger
