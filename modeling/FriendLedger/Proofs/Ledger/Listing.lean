import FriendLedger.Ledger.ExpenseChange
import FriendLedger.Proofs.Store.Keys

/-! How a stored expense reads back: under its id, with its shares by counterparty,
those of one party in the order in which they were given. -/

namespace FriendLedger

set_option autoImplicit false

/-- The shares by counterparty; those of one party keep their order. -/
structure Share.StablySorted (shares listed : List Share) : Prop where
  perm : listed.Perm shares
  ordered : listed.Pairwise fun a b => a.counterparty ≤ b.counterparty
  stable : ∀ user, listed.filter (·.counterparty = user) = shares.filter (·.counterparty = user)

namespace Share

theorem listedBefore_trans (a b c : Share) (hab : a.listedBefore b) (hbc : b.listedBefore c) :
    a.listedBefore c := by
  simp only [listedBefore, decide_eq_true_eq] at *
  exact String.le_trans hab hbc

theorem listedBefore_total (a b : Share) : a.listedBefore b || b.listedBefore a := by
  simp only [listedBefore, Bool.or_eq_true, decide_eq_true_eq]
  exact String.le_total a.counterparty b.counterparty

theorem stablySorted_sorted (shares : List Share) : StablySorted shares (sorted shares) where
  perm := List.mergeSort_perm shares listedBefore
  ordered := (List.pairwise_mergeSort listedBefore_trans listedBefore_total shares).imp
    fun h => of_decide_eq_true h
  stable user := by
    have hown : (shares.filter (·.counterparty = user)).Pairwise fun a b => a.listedBefore b := by
      rw [List.pairwise_filter]
      refine List.pairwise_of_forall fun a b ha hb => ?_
      simp only [decide_eq_true_eq] at ha hb
      simp [listedBefore, ha, hb]
    have hsub := (List.sublist_mergeSort listedBefore_trans listedBefore_total hown
      List.filter_sublist).filter fun s => decide (s.counterparty = user)
    rw [List.filter_filter] at hsub
    simp only [Bool.and_self] at hsub
    refine (hsub.eq_of_length ?_).symm
    exact ((List.mergeSort_perm shares listedBefore).filter _).length_eq.symm

end Share

/-- The expense as it is read under an id. -/
def Expense.listedAs (e : Expense) (id : Id) : Expense :=
  { e with id := some id, shares := Share.sorted e.shares }

theorem Expense.involves_listedAs (e : Expense) (id : Id) (user : String) :
    (e.listedAs id).involves user = e.involves user := by
  rw [Bool.eq_iff_iff, involves_iff, involves_iff]
  simp only [listedAs, Share.mem_sorted_iff]

namespace ExpenseRows

structure Encodes (rows : ExpenseRows) (id : Id) (e : Expense) : Prop where
  deal : rows.deal = ⟨id.toText, e.timestamp, e.details, e.totalCost, e.currency.code⟩
  shares : rows.spendings.map SpendingRow.toShare = e.shares
  coherent : rows.Coherent

/-- What was stored reads back. -/
theorem Encodes.decode_eq {rows : ExpenseRows} {id : Id} {e : Expense} (h : rows.Encodes id e) :
    rows.decode = .ok (e.listedAs id) := by
  have hid : rows.deal.decodeId = .ok id := by
    simp only [DealRow.decodeId, h.deal, Id.ofText?_toText]
  rw [decode, DealRow.decode, hid, h.shares, ok_bind, h.deal, Currency.decode_code, ok_bind]
  rfl

end ExpenseRows
end FriendLedger
