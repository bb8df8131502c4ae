import FriendLedger.Proofs.Store.Keys
import Mathlib.Data.List.Nodup

/-! Places of a store: an edge, or an expense with its deal and all its spendings.
Two stores agree at a place when they hold the same rows there, those of one deal
in the same order. A write changes one place, and it acts on stores that agree in
the same way. -/

namespace FriendLedger

set_option autoImplicit false

inductive Place
  | edge (e : Edge)
  /-- The deal stored under a text, and its spendings. -/
  | expense (id : String)
deriving DecidableEq

/-- Rows with a key of their own are found by it. -/
theorem filter_key_eq_singleton {α : Type} (key : α → String) {xs : List α} {x : α}
    (hn : (xs.map key).Nodup) (hx : x ∈ xs) : xs.filter (fun y => key y == key x) = [x] := by
  induction xs with
  | nil => cases hx
  | cons y ys ih =>
    obtain ⟨hy, hys⟩ := List.nodup_cons.mp hn
    rcases List.mem_cons.mp hx with rfl | hx
    · rw [List.filter_cons_of_pos (by simp), List.filter_eq_nil_iff.mpr]
      intro z hz hid
      exact hy (List.mem_map.mpr ⟨z, hz, beq_iff_eq.mp hid⟩)
    · rw [List.filter_cons_of_neg, ih hys hx]
      intro hid
      exact hy (List.mem_map.mpr ⟨x, hx, (beq_iff_eq.mp hid).symm⟩)

namespace Store

def AgreesAt (s t : Store) : Place → Prop
  | .edge e => e ∈ s.heldEdges ↔ e ∈ t.heldEdges
  | .expense id => s.dealsAt id = t.dealsAt id ∧ s.spendingsAt id = t.spendingsAt id

/-- The same rows everywhere. Rows of different deals may stand in another order. -/
def Agrees (s t : Store) : Prop := ∀ p, s.AgreesAt t p

section Laws
variable {s t u : Store} {p : Place}

theorem AgreesAt.refl (s : Store) (p : Place) : s.AgreesAt s p := by
  cases p with
  | edge e => exact Iff.rfl
  | expense id => exact ⟨rfl, rfl⟩

theorem AgreesAt.symm (h : s.AgreesAt t p) : t.AgreesAt s p := by
  cases p with
  | edge e => exact Iff.symm h
  | expense id => exact ⟨h.1.symm, h.2.symm⟩

theorem AgreesAt.trans (h : s.AgreesAt t p) (h' : t.AgreesAt u p) : s.AgreesAt u p := by
  cases p with
  | edge e => exact Iff.trans h h'
  | expense id => exact ⟨h.1.trans h'.1, h.2.trans h'.2⟩

theorem mem_dealsAt_iff {id : String} {d : DealRow} :
    d ∈ s.dealsAt id ↔ d ∈ s.heldDeals ∧ d.id = id := by
  simp [dealsAt]

theorem mem_spendingsAt_iff {id : String} {q : SpendingRow} :
    q ∈ s.spendingsAt id ↔ q ∈ s.heldSpendings ∧ q.dealId = id := by
  simp [spendingsAt]

theorem dealsAt_eq_nil_iff {id : String} : s.dealsAt id = [] ↔ ∀ d ∈ s.heldDeals, d.id ≠ id := by
  simp [dealsAt]

theorem Keyed.spendingsAt_eq_nil (hs : s.Keyed) {id : String} (h : s.dealsAt id = []) :
    s.spendingsAt id = [] := by
  rw [spendingsAt, List.filter_eq_nil_iff]
  intro q hq hid
  obtain ⟨d, hd, hdq⟩ := hs.refers q hq
  exact dealsAt_eq_nil_iff.mp h d hd (hdq.trans (by simpa using hid))

theorem Keyed.dealsAt_eq (hs : s.Keyed) {d : DealRow} (hd : d ∈ s.heldDeals) :
    s.dealsAt d.id = [d] := filter_key_eq_singleton DealRow.id hs.nodup_deals hd

theorem Keyed.dealsAt_of_head? (hs : s.Keyed) {id : String} {d : DealRow}
    (hd : (s.dealsAt id).head? = some d) : s.dealsAt id = [d] := by
  obtain ⟨hm, rfl⟩ := mem_dealsAt_iff.mp (List.mem_of_mem_head? hd)
  exact hs.dealsAt_eq hm

theorem Keyed.eq_of_spending_id (hs : s.Keyed) {p q : SpendingRow} (hp : p ∈ s.heldSpendings)
    (hq : q ∈ s.heldSpendings) (h : p.id = q.id) : p = q :=
  List.inj_on_of_nodup_map hs.nodup_spendings hp hq h

theorem Keyed.admits_withoutExpense (hs : s.Keyed) {id : String} {d : DealRow}
    (hd : (s.dealsAt id).head? = some d) :
    (s.withoutExpense id).Admits ⟨d, s.spendingsAt id⟩ where
  deal := by
    obtain ⟨_, rfl⟩ := mem_dealsAt_iff.mp (List.mem_of_mem_head? hd)
    intro c hc
    simpa using (List.mem_filter.mp hc).2
  nodup := hs.nodup_spendings.sublist (List.filter_sublist.map _)
  spendings := by
    intro p hp q hq hid
    obtain ⟨hp, hpid⟩ := mem_spendingsAt_iff.mp hp
    obtain ⟨hq, hqid⟩ := List.mem_filter.mp hq
    rw [hs.eq_of_spending_id hq hp hid] at hqid
    simp [hpid] at hqid

theorem Agrees.mem_heldDeals_iff (h : s.Agrees t) {d : DealRow} :
    d ∈ s.heldDeals ↔ d ∈ t.heldDeals := by
  have hd : d ∈ s.dealsAt d.id ↔ d ∈ t.dealsAt d.id := by rw [(h (.expense d.id)).1]
  simpa only [mem_dealsAt_iff, and_true] using hd

theorem Agrees.mem_heldSpendings_iff (h : s.Agrees t) {q : SpendingRow} :
    q ∈ s.heldSpendings ↔ q ∈ t.heldSpendings := by
  have hq : q ∈ s.spendingsAt q.dealId ↔ q ∈ t.spendingsAt q.dealId := by
    rw [(h (.expense q.dealId)).2]
  simpa only [mem_spendingsAt_iff, and_true] using hq

/-- The same rows in every table, the spendings of each deal in the same order. -/
structure SameRows (s t : Store) : Prop where
  edges : s.heldEdges.Perm t.heldEdges
  deals : s.heldDeals.Perm t.heldDeals
  spendings : s.heldSpendings.Perm t.heldSpendings
  order : ∀ id, s.spendingsAt id = t.spendingsAt id

theorem Keyed.sameRows (hs : s.Keyed) (ht : t.Keyed) (h : s.Agrees t) : s.SameRows t where
  edges := (List.perm_ext_iff_of_nodup hs.nodup_edges ht.nodup_edges).mpr fun e => h (.edge e)
  deals := (List.perm_ext_iff_of_nodup (.of_map _ hs.nodup_deals) (.of_map _ ht.nodup_deals)).mpr
    fun _ => h.mem_heldDeals_iff
  spendings := (List.perm_ext_iff_of_nodup (.of_map _ hs.nodup_spendings)
    (.of_map _ ht.nodup_spendings)).mpr fun _ => h.mem_heldSpendings_iff
  order id := (h (.expense id)).2

theorem SameRows.agrees (h : s.SameRows t) (ht : t.Keyed) : s.Agrees t := by
  intro p
  cases p with
  | edge e => exact h.edges.mem_iff
  | expense id =>
    refine ⟨?_, h.order id⟩
    have hperm : (s.dealsAt id).Perm (t.dealsAt id) := h.deals.filter _
    cases hd : (t.dealsAt id).head? with
    | none =>
      rw [List.head?_eq_none_iff.mp hd] at hperm ⊢
      exact hperm.eq_nil
    | some d =>
      rw [ht.dealsAt_of_head? hd] at hperm ⊢
      exact List.perm_singleton.mp hperm

end Laws

/-! ### Writes -/

section Writes
variable {s t : Store} {p : Place}

/-- The store in which an edge that was removed is there again. -/
def restoreEdge (s : Store) (e : Edge) : Store :=
  if e ∈ s.heldEdges then s else s.withEdge e

theorem mem_heldEdges_restoreEdge {e e' : Edge} :
    e' ∈ (s.restoreEdge e).heldEdges ↔ e' ∈ s.heldEdges ∨ e' = e := by
  unfold restoreEdge
  split
  · rename_i he
    constructor
    · exact .inl
    · rintro (h | rfl)
      · exact h
      · exact he
  · simp

@[simp] theorem heldDeals_restoreEdge (e : Edge) :
    (s.restoreEdge e).heldDeals = s.heldDeals := by
  unfold restoreEdge
  split <;> rfl

@[simp] theorem heldSpendings_restoreEdge (e : Edge) :
    (s.restoreEdge e).heldSpendings = s.heldSpendings := by
  unfold restoreEdge
  split <;> rfl

theorem Keyed.restoreEdge (h : s.Keyed) (e : Edge) : (s.restoreEdge e).Keyed := by
  unfold Store.restoreEdge
  split
  · exact h
  · rename_i he
    exact h.withEdge he

theorem dealsAt_withExpense (rows : ExpenseRows) (id : String) :
    (s.withExpense rows).dealsAt id =
      s.dealsAt id ++ if rows.deal.id = id then [rows.deal] else [] := by
  simp only [dealsAt, heldDeals_withExpense, List.filter_append]
  by_cases h : rows.deal.id = id <;> simp [h]

theorem spendingsAt_withExpense {rows : ExpenseRows} (hr : rows.Coherent) (id : String) :
    (s.withExpense rows).spendingsAt id =
      s.spendingsAt id ++ if rows.deal.id = id then rows.spendings else [] := by
  simp only [spendingsAt, heldSpendings_withExpense, List.filter_append]
  congr 1
  split
  · rename_i h
    rw [List.filter_eq_self]
    intro q hq
    simpa using (hr q hq).trans h
  · rename_i h
    rw [List.filter_eq_nil_iff]
    intro q hq hid
    exact h ((hr q hq).symm.trans (by simpa using hid))

theorem dealsAt_withoutExpense (id' id : String) :
    (s.withoutExpense id').dealsAt id = if id = id' then [] else s.dealsAt id := by
  simp only [dealsAt, heldDeals_withoutExpense, List.filter_filter]
  split
  · rename_i h
    rw [List.filter_eq_nil_iff]
    intro d _
    simp [h]
  · rename_i h
    apply List.filter_congr
    intro d _
    by_cases hd : d.id = id <;> simp [hd, h]

theorem spendingsAt_withoutExpense (id' id : String) :
    (s.withoutExpense id').spendingsAt id = if id = id' then [] else s.spendingsAt id := by
  simp only [spendingsAt, heldSpendings_withoutExpense, List.filter_filter]
  split
  · rename_i h
    rw [List.filter_eq_nil_iff]
    intro q _
    simp [h]
  · rename_i h
    apply List.filter_congr
    intro q _
    by_cases hq : q.dealId = id <;> simp [hq, h]

end Writes
end Store
end FriendLedger
