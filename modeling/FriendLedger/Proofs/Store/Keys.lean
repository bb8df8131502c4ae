import FriendLedger.Proofs.Outcome
import FriendLedger.Store

/-! Stores that have all their tables and satisfy the keys of the schema. Every
statement of the store is described once, by the store that it leaves behind, and
keeps the keys. -/

namespace FriendLedger

set_option autoImplicit false

/-- Every spending belongs to the deal. -/
def ExpenseRows.Coherent (rows : ExpenseRows) : Prop :=
  ∀ p ∈ rows.spendings, p.dealId = rows.deal.id

namespace Store

def heldEdges (s : Store) : List Edge := s.edges.getD []

def heldDeals (s : Store) : List DealRow := s.deals.getD []

def heldSpendings (s : Store) : List SpendingRow := s.spendings.getD []

structure Complete (s : Store) : Prop where
  edges : s.edges = some s.heldEdges
  deals : s.deals = some s.heldDeals
  spendings : s.spendings = some s.heldSpendings

/-- The rows satisfy the primary keys, and every spending refers to a deal. -/
structure Keyed (s : Store) : Prop extends Complete s where
  nodup_edges : s.heldEdges.Nodup
  nodup_deals : (s.heldDeals.map (·.id)).Nodup
  nodup_spendings : (s.heldSpendings.map (·.id)).Nodup
  refers : ∀ p ∈ s.heldSpendings, ∃ d ∈ s.heldDeals, d.id = p.dealId

theorem keyed_fresh : fresh.Keyed :=
  ⟨⟨rfl, rfl, rfl⟩, List.nodup_nil, List.nodup_nil, List.nodup_nil, fun _ hp => by cases hp⟩

/-- The deals of an id: at most one, by the primary key. -/
def dealsAt (s : Store) (id : String) : List DealRow := s.heldDeals.filter (·.id == id)

/-- The spendings of a deal, in the order of their insertion. -/
def spendingsAt (s : Store) (id : String) : List SpendingRow :=
  s.heldSpendings.filter (·.dealId == id)

section Complete
variable {s : Store} (h : s.Complete)
include h

theorem Complete.edgeRows_eq : s.edgeRows = .ok s.heldEdges := by
  rw [edgeRows, h.edges]
  rfl

theorem Complete.dealRows_eq : s.dealRows = .ok s.heldDeals := by
  rw [dealRows, h.deals]
  rfl

theorem Complete.spendingRows_eq : s.spendingRows = .ok s.heldSpendings := by
  rw [spendingRows, h.spendings]
  rfl

end Complete

/-! ### Edges -/

def withEdge (s : Store) (e : Edge) : Store := { s with edges := some (s.heldEdges ++ [e]) }

def withoutEdge (s : Store) (e : Edge) : Store :=
  { s with edges := some (s.heldEdges.filter (· ≠ e)) }

@[simp] theorem heldEdges_withEdge (s : Store) (e : Edge) :
    (s.withEdge e).heldEdges = s.heldEdges ++ [e] := rfl

@[simp] theorem heldDeals_withEdge (s : Store) (e : Edge) :
    (s.withEdge e).heldDeals = s.heldDeals := rfl

@[simp] theorem heldSpendings_withEdge (s : Store) (e : Edge) :
    (s.withEdge e).heldSpendings = s.heldSpendings := rfl

@[simp] theorem heldEdges_withoutEdge (s : Store) (e : Edge) :
    (s.withoutEdge e).heldEdges = s.heldEdges.filter (· ≠ e) := rfl

@[simp] theorem heldDeals_withoutEdge (s : Store) (e : Edge) :
    (s.withoutEdge e).heldDeals = s.heldDeals := rfl

@[simp] theorem heldSpendings_withoutEdge (s : Store) (e : Edge) :
    (s.withoutEdge e).heldSpendings = s.heldSpendings := rfl

theorem Complete.insertEdge_eq {s : Store} (h : s.Complete) (e : Edge) :
    s.insertEdge e =
      if e ∈ s.heldEdges then .error (.duplicateKey .friendRequests) else .ok (s.withEdge e) := by
  simp only [insertEdge, h.edgeRows_eq]
  by_cases he : e ∈ s.heldEdges <;> simp [he, withEdge]

theorem Complete.deleteEdge_eq {s : Store} (h : s.Complete) (e : Edge) :
    s.deleteEdge e = .ok (decide (e ∈ s.heldEdges), s.withoutEdge e) := by
  simp only [deleteEdge, h.edgeRows_eq]
  rfl

theorem Keyed.withEdge {s : Store} (h : s.Keyed) {e : Edge} (he : e ∉ s.heldEdges) :
    (s.withEdge e).Keyed where
  edges := rfl
  deals := h.deals
  spendings := h.spendings
  nodup_edges := by
    rw [heldEdges_withEdge, List.nodup_append]
    refine ⟨h.nodup_edges, by simp, ?_⟩
    intro a ha b hb
    rw [List.mem_singleton] at hb
    rintro rfl
    exact he (hb ▸ ha)
  nodup_deals := h.nodup_deals
  nodup_spendings := h.nodup_spendings
  refers := h.refers

theorem Keyed.withoutEdge {s : Store} (h : s.Keyed) (e : Edge) : (s.withoutEdge e).Keyed where
  edges := rfl
  deals := h.deals
  spendings := h.spendings
  nodup_edges := h.nodup_edges.filter _
  nodup_deals := h.nodup_deals
  nodup_spendings := h.nodup_spendings
  refers := h.refers

/-! ### Expenses -/

def withExpense (s : Store) (rows : ExpenseRows) : Store :=
  { s with
    deals := some (s.heldDeals ++ [rows.deal])
    spendings := some (s.heldSpendings ++ rows.spendings) }

def withoutExpense (s : Store) (id : String) : Store :=
  { s with
    deals := some (s.heldDeals.filter (·.id ≠ id))
    spendings := some (s.heldSpendings.filter (·.dealId ≠ id)) }

@[simp] theorem heldEdges_withExpense (s : Store) (rows : ExpenseRows) :
    (s.withExpense rows).heldEdges = s.heldEdges := rfl

@[simp] theorem heldDeals_withExpense (s : Store) (rows : ExpenseRows) :
    (s.withExpense rows).heldDeals = s.heldDeals ++ [rows.deal] := rfl

@[simp] theorem heldSpendings_withExpense (s : Store) (rows : ExpenseRows) :
    (s.withExpense rows).heldSpendings = s.heldSpendings ++ rows.spendings := rfl

@[simp] theorem heldEdges_withoutExpense (s : Store) (id : String) :
    (s.withoutExpense id).heldEdges = s.heldEdges := rfl

@[simp] theorem heldDeals_withoutExpense (s : Store) (id : String) :
    (s.withoutExpense id).heldDeals = s.heldDeals.filter (·.id ≠ id) := rfl

@[simp] theorem heldSpendings_withoutExpense (s : Store) (id : String) :
    (s.withoutExpense id).heldSpendings = s.heldSpendings.filter (·.dealId ≠ id) := rfl

/-- The keys of the rows are free in the store. -/
structure Admits (s : Store) (rows : ExpenseRows) : Prop where
  deal : ∀ d ∈ s.heldDeals, d.id ≠ rows.deal.id
  nodup : (rows.spendings.map (·.id)).Nodup
  spendings : ∀ p ∈ rows.spendings, ∀ q ∈ s.heldSpendings, q.id ≠ p.id

def withSpendings (s : Store) (ps : List SpendingRow) : Store :=
  { s with spendings := some (s.heldSpendings ++ ps) }

@[simp] theorem heldDeals_withSpendings (s : Store) (ps : List SpendingRow) :
    (s.withSpendings ps).heldDeals = s.heldDeals := rfl

@[simp] theorem heldSpendings_withSpendings (s : Store) (ps : List SpendingRow) :
    (s.withSpendings ps).heldSpendings = s.heldSpendings ++ ps := rfl

theorem Complete.withSpendings {s : Store} (h : s.Complete) (ps : List SpendingRow) :
    (s.withSpendings ps).Complete := ⟨h.edges, h.deals, rfl⟩

theorem withSpendings_nil {s : Store} (h : s.Complete) : s.withSpendings [] = s := by
  rw [withSpendings, List.append_nil, ← h.spendings]

theorem withSpendings_withSpendings (s : Store) (ps qs : List SpendingRow) :
    (s.withSpendings ps).withSpendings qs = s.withSpendings (ps ++ qs) := by
  simp only [withSpendings, heldSpendings, Option.getD_some, List.append_assoc]

/-- A spending of a stored deal is refused for its own key alone. -/
theorem Complete.insertSpending_eq {s : Store} (h : s.Complete) {p : SpendingRow}
    (hd : ∃ d ∈ s.heldDeals, d.id = p.dealId) :
    s.insertSpending p =
      if ∃ q ∈ s.heldSpendings, q.id = p.id then .error (.duplicateKey .spendings)
      else .ok (s.withSpendings [p]) := by
  have hany : s.heldDeals.any (·.id == p.dealId) = true := by simpa using hd
  simp only [insertSpending, h.spendingRows_eq, h.dealRows_eq, ok_bind]
  by_cases hq : ∃ q ∈ s.heldSpendings, q.id = p.id
  · have hkey : s.heldSpendings.any (·.id == p.id) = true := by simpa using hq
    simp only [hkey, if_true, if_pos hq, throw_eq_error, error_bind]
  · have hkey : s.heldSpendings.any (·.id == p.id) = false := by simpa using hq
    simp [hkey, hany, if_neg hq, Store.withSpendings]

theorem insertSpendings_eq_ok_iff {s t : Store} (h : s.Complete) {ps : List SpendingRow}
    (hd : ∀ p ∈ ps, ∃ d ∈ s.heldDeals, d.id = p.dealId) :
    ps.foldlM insertSpending s = .ok t ↔
      (ps.map (·.id)).Nodup ∧ (∀ p ∈ ps, ∀ q ∈ s.heldSpendings, q.id ≠ p.id) ∧
        t = s.withSpendings ps := by
  induction ps generalizing s with
  | nil => simp [withSpendings_nil h, eq_comm]
  | cons p ps ih =>
    rw [List.foldlM_cons, h.insertSpending_eq (hd p List.mem_cons_self)]
    by_cases hq : ∃ q ∈ s.heldSpendings, q.id = p.id
    · obtain ⟨q, hmem, hid⟩ := hq
      rw [if_pos ⟨q, hmem, hid⟩, error_bind]
      constructor
      · intro he
        cases he
      · rintro ⟨_, hfree, _⟩
        exact absurd hid (hfree p List.mem_cons_self q hmem)
    · rw [if_neg hq, ok_bind, ih (h.withSpendings [p]) fun q hm => hd q (List.mem_cons_of_mem p hm),
        withSpendings_withSpendings, List.singleton_append, heldSpendings_withSpendings,
        List.map_cons, List.nodup_cons]
      constructor
      · rintro ⟨hps, hfree, ht⟩
        refine ⟨⟨?_, hps⟩, ?_, ht⟩
        · intro hp
          obtain ⟨r, hr, hrp⟩ := List.mem_map.mp hp
          exact hfree r hr p (List.mem_append_right _ List.mem_cons_self) hrp.symm
        · intro r hr q hm
          rcases List.mem_cons.mp hr with rfl | hr
          · exact fun hid => hq ⟨q, hm, hid⟩
          · exact hfree r hr q (List.mem_append_left _ hm)
      · rintro ⟨⟨hp, hps⟩, hfree, ht⟩
        refine ⟨hps, ?_, ht⟩
        intro r hr q hm
        rcases List.mem_append.mp hm with hm | hm
        · exact hfree r (List.mem_cons_of_mem p hr) q hm
        · rw [List.mem_singleton.mp hm]
          exact fun hid => hp (List.mem_map.mpr ⟨r, hr, hid.symm⟩)

/-- Rows of one expense go in exactly when their keys are free. -/
theorem Complete.insertExpense_eq_ok_iff {s t : Store} (h : s.Complete) {rows : ExpenseRows}
    (hr : rows.Coherent) :
    s.insertExpense rows = .ok t ↔ s.Admits rows ∧ t = s.withExpense rows := by
  simp only [insertExpense, insertDeal, h.dealRows_eq, ok_bind]
  by_cases hd : ∃ d ∈ s.heldDeals, d.id = rows.deal.id
  · have hkey : s.heldDeals.any (·.id == rows.deal.id) = true := by simpa using hd
    simp only [hkey, if_true, throw_eq_error, error_bind, reduceCtorEq, false_iff]
    rintro ⟨hadm, -⟩
    obtain ⟨d, hm, hid⟩ := hd
    exact hadm.deal d hm hid
  · have hkey : s.heldDeals.any (·.id == rows.deal.id) = false := by simpa using hd
    have hc : ({ s with deals := some (s.heldDeals ++ [rows.deal]) } : Store).Complete :=
      ⟨h.edges, rfl, h.spendings⟩
    simp only [hkey, Bool.false_eq_true, if_false, pure_eq_ok, ok_bind]
    rw [insertSpendings_eq_ok_iff hc]
    · constructor
      · rintro ⟨hn, hfree, ht⟩
        exact ⟨⟨fun d hm hid => hd ⟨d, hm, hid⟩, hn, hfree⟩, ht⟩
      · rintro ⟨hadm, ht⟩
        exact ⟨hadm.nodup, hadm.spendings, ht⟩
    · intro p hp
      exact ⟨rows.deal, List.mem_append_right _ List.mem_cons_self, (hr p hp).symm⟩

theorem Complete.deleteExpense_eq {s : Store} (h : s.Complete) (id : String) :
    s.deleteExpense id = .ok (s.withoutExpense id) := by
  simp only [deleteExpense, h.spendingRows_eq, h.dealRows_eq, ok_bind]
  rfl

theorem Complete.findExpense_eq {s : Store} (h : s.Complete) (id : String) :
    s.findExpense id = .ok ((s.dealsAt id).head?.map fun d => ⟨d, s.spendingsAt id⟩) := by
  simp only [findExpense, h.dealRows_eq, h.spendingRows_eq, ok_bind, dealsAt, spendingsAt]
  rw [List.head?_filter]
  cases s.heldDeals.find? (·.id == id) <;> rfl

theorem Keyed.withExpense {s : Store} (h : s.Keyed) {rows : ExpenseRows} (hr : rows.Coherent)
    (ha : s.Admits rows) : (s.withExpense rows).Keyed where
  edges := h.edges
  deals := rfl
  spendings := rfl
  nodup_edges := h.nodup_edges
  nodup_deals := by
    rw [heldDeals_withExpense, List.map_append, List.nodup_append]
    refine ⟨h.nodup_deals, by simp, ?_⟩
    intro a hm b hb
    obtain ⟨d, hd, rfl⟩ := List.mem_map.mp hm
    rw [List.map_cons, List.map_nil, List.mem_singleton] at hb
    rw [hb]
    exact ha.deal d hd
  nodup_spendings := by
    rw [heldSpendings_withExpense, List.map_append, List.nodup_append]
    refine ⟨h.nodup_spendings, ha.nodup, ?_⟩
    intro a hm b hb
    obtain ⟨q, hq, rfl⟩ := List.mem_map.mp hm
    obtain ⟨p, hp, rfl⟩ := List.mem_map.mp hb
    exact ha.spendings p hp q hq
  refers := by
    intro p hp
    rw [heldDeals_withExpense]
    rcases List.mem_append.mp hp with hp | hp
    · obtain ⟨d, hd, hid⟩ := h.refers p hp
      exact ⟨d, List.mem_append_left _ hd, hid⟩
    · exact ⟨rows.deal, List.mem_append_right _ List.mem_cons_self, (hr p hp).symm⟩

theorem Keyed.withoutExpense {s : Store} (h : s.Keyed) (id : String) :
    (s.withoutExpense id).Keyed where
  edges := h.edges
  deals := rfl
  spendings := rfl
  nodup_edges := h.nodup_edges
  nodup_deals := h.nodup_deals.sublist (List.filter_sublist.map _)
  nodup_spendings := h.nodup_spendings.sublist (List.filter_sublist.map _)
  refers := by
    intro p hp
    obtain ⟨hp, hid⟩ := List.mem_filter.mp hp
    obtain ⟨d, hd, hdp⟩ := h.refers p hp
    refine ⟨d, List.mem_filter.mpr ⟨hd, ?_⟩, hdp⟩
    rw [hdp]
    exact hid

/-! ### Inserted rows -/

theorem Keyed.insertEdge {s t : Store} (h : s.Keyed) {e : Edge} (hins : s.insertEdge e = .ok t) :
    t.Keyed := by
  rw [h.insertEdge_eq] at hins
  split at hins
  · cases hins
  · rename_i he
    cases hins
    exact h.withEdge he

theorem Keyed.insertDeal {s t : Store} (h : s.Keyed) {d : DealRow} (hins : s.insertDeal d = .ok t) :
    t.Keyed := by
  simp only [Store.insertDeal, h.dealRows_eq, ok_bind] at hins
  split at hins
  · cases hins
  · rename_i hnew
    have hcoherent : (ExpenseRows.mk d []).Coherent := fun p hp => by cases hp
    have hk := h.withExpense hcoherent
      ⟨by simpa using hnew, List.nodup_nil, fun p hp => by cases hp⟩
    cases hins
    simpa only [Store.withExpense, List.append_nil, ← h.spendings] using hk

theorem Keyed.insertSpending {s t : Store} (h : s.Keyed) {p : SpendingRow}
    (hins : s.insertSpending p = .ok t) : t.Keyed := by
  simp only [Store.insertSpending, h.spendingRows_eq, h.dealRows_eq, ok_bind] at hins
  split at hins
  · cases hins
  · rename_i hnew
    split at hins
    · cases hins
    · rename_i hdeal
      cases hins
      have hnodup : ((s.heldSpendings ++ [p]).map (·.id)).Nodup := by
        rw [List.map_append, List.nodup_append]
        refine ⟨h.nodup_spendings, by simp, ?_⟩
        intro a ha b hb
        obtain ⟨q, hq, rfl⟩ := List.mem_map.mp ha
        rw [List.map_singleton, List.mem_singleton] at hb
        rw [hb]
        exact fun hid => hnew (List.any_eq_true.mpr ⟨q, hq, beq_iff_eq.mpr hid⟩)
      have hrefers : ∃ d ∈ s.heldDeals, d.id = p.dealId := by simpa using hdeal
      refine ⟨⟨h.edges, h.deals, rfl⟩, h.nodup_edges, h.nodup_deals, hnodup, ?_⟩
      intro q hq
      rcases List.mem_append.mp hq with hq | hq
      · exact h.refers q hq
      · rw [List.mem_singleton.mp hq]
        exact hrefers

theorem Keyed.insertSpendings {s t : Store} (h : s.Keyed) {ps : List SpendingRow}
    (hins : ps.foldlM Store.insertSpending s = .ok t) : t.Keyed := by
  induction ps generalizing s with
  | nil =>
    cases hins
    exact h
  | cons p ps ih =>
    obtain ⟨u, hu, hrest⟩ := bind_eq_ok_iff.mp hins
    exact ih (h.insertSpending hu) hrest

/-- Rows that are accepted keep the keys, whichever deals they belong to. -/
theorem Keyed.insertExpense {s t : Store} (h : s.Keyed) {rows : ExpenseRows}
    (hins : s.insertExpense rows = .ok t) : t.Keyed := by
  obtain ⟨u, hu, hrest⟩ := bind_eq_ok_iff.mp hins
  exact (h.insertDeal hu).insertSpendings hrest

end Store
end FriendLedger
