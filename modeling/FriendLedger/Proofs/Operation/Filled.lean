import FriendLedger.Proofs.Operation.Effect

/-! Stores in which tables may be missing. An operation that succeeds there does the same
to the filled store, in which the missing tables are present and empty, and the same
tables are missing afterwards. What is known of complete stores carries over in this way. -/

namespace FriendLedger

set_option autoImplicit false

namespace Store

def filled (s : Store) : Store :=
  ⟨some s.heldEdges, some s.heldDeals, some s.heldSpendings, s.recorded⟩

@[simp] theorem heldEdges_filled (s : Store) : s.filled.heldEdges = s.heldEdges := rfl

@[simp] theorem heldDeals_filled (s : Store) : s.filled.heldDeals = s.heldDeals := rfl

@[simp] theorem heldSpendings_filled (s : Store) : s.filled.heldSpendings = s.heldSpendings := rfl

theorem complete_filled (s : Store) : s.filled.Complete := ⟨rfl, rfl, rfl⟩

theorem Agrees.sameRows {s t : Store} (h : s.Agrees t) (hs : s.filled.Keyed) (ht : t.filled.Keyed) :
    s.SameRows t := by
  obtain ⟨hedges, hdeals, hspendings, horder⟩ := hs.sameRows ht h
  exact ⟨hedges, hdeals, hspendings, horder⟩

/-- The same tables are present. -/
structure SameTables (s t : Store) : Prop where
  edges : s.edges.isSome = t.edges.isSome
  deals : s.deals.isSome = t.deals.isSome
  spendings : s.spendings.isSome = t.spendings.isSome
  recorded : s.recorded = t.recorded

theorem SameTables.refl (s : Store) : s.SameTables s := ⟨rfl, rfl, rfl, rfl⟩

theorem SameTables.symm {s t : Store} (h : s.SameTables t) : t.SameTables s :=
  ⟨h.edges.symm, h.deals.symm, h.spendings.symm, h.recorded.symm⟩

theorem SameTables.trans {s t u : Store} (h : s.SameTables t) (h' : t.SameTables u) :
    s.SameTables u :=
  ⟨h.edges.trans h'.edges, h.deals.trans h'.deals, h.spendings.trans h'.spendings,
    h.recorded.trans h'.recorded⟩

theorem Complete.of_sameTables {s t : Store} (h : s.Complete) (hst : s.SameTables t) :
    t.Complete := by
  obtain ⟨hedges, hdeals, hspendings, -⟩ := hst
  rw [h.edges] at hedges
  rw [h.deals] at hdeals
  rw [h.spendings] at hspendings
  constructor
  · obtain ⟨rows, hrows⟩ := Option.isSome_iff_exists.mp hedges.symm
    rw [heldEdges, hrows, Option.getD_some]
  · obtain ⟨rows, hrows⟩ := Option.isSome_iff_exists.mp hdeals.symm
    rw [heldDeals, hrows, Option.getD_some]
  · obtain ⟨rows, hrows⟩ := Option.isSome_iff_exists.mp hspendings.symm
    rw [heldSpendings, hrows, Option.getD_some]

/-! ### Statements -/

section Rows
variable {s : Store}

theorem rowsOf_eq_ok {α : Type} {table : Table} {rows : Option (List α)} {xs : List α}
    (h : rowsOf table rows = .ok xs) : rows = some xs := by
  cases rows <;> cases h
  rfl

theorem edgeRows_filled {rows : List Edge} (h : s.edgeRows = .ok rows) :
    s.edges = some rows ∧ s.filled.edgeRows = .ok rows := by
  have hs := rowsOf_eq_ok h
  rw [s.complete_filled.edgeRows_eq, heldEdges_filled, heldEdges, hs]
  exact ⟨rfl, rfl⟩

theorem dealRows_filled {rows : List DealRow} (h : s.dealRows = .ok rows) :
    s.deals = some rows ∧ s.filled.dealRows = .ok rows := by
  have hs := rowsOf_eq_ok h
  rw [s.complete_filled.dealRows_eq, heldDeals_filled, heldDeals, hs]
  exact ⟨rfl, rfl⟩

theorem spendingRows_filled {rows : List SpendingRow} (h : s.spendingRows = .ok rows) :
    s.spendings = some rows ∧ s.filled.spendingRows = .ok rows := by
  have hs := rowsOf_eq_ok h
  rw [s.complete_filled.spendingRows_eq, heldSpendings_filled, heldSpendings, hs]
  exact ⟨rfl, rfl⟩

end Rows

section Statements
variable {s t : Store}

theorem insertEdge_filled {e : Edge} (h : s.insertEdge e = .ok t) :
    s.filled.insertEdge e = .ok t.filled ∧ s.SameTables t := by
  obtain ⟨rows, hrows, h⟩ := bind_eq_ok_iff.mp h
  obtain ⟨hs, hfilled⟩ := edgeRows_filled hrows
  simp only [insertEdge, hfilled, ok_bind]
  by_cases he : e ∈ rows
  · rw [if_pos he] at h
    cases h
  · rw [if_neg he] at h ⊢
    cases h
    exact ⟨rfl, by rw [hs]; rfl, rfl, rfl, rfl⟩

theorem insertEdge_filled_error {e : Edge} {table : Table}
    (h : s.insertEdge e = .error (.duplicateKey table)) :
    s.filled.insertEdge e = .error (.duplicateKey table) := by
  unfold insertEdge at h ⊢
  cases hrows : s.edgeRows with
  | error f =>
    rw [hrows, error_bind] at h
    cases h
    cases hs : s.edges <;> simp [edgeRows, rowsOf, hs] at hrows
  | ok rows =>
    rw [hrows, ok_bind] at h
    rw [(edgeRows_filled hrows).2, ok_bind]
    by_cases he : e ∈ rows
    · rw [if_pos he] at h ⊢
      exact h
    · rw [if_neg he] at h
      cases h

theorem deleteEdge_filled {e : Edge} {hit : Bool} (h : s.deleteEdge e = .ok (hit, t)) :
    s.filled.deleteEdge e = .ok (hit, t.filled) ∧ s.SameTables t := by
  obtain ⟨rows, hrows, h⟩ := bind_eq_ok_iff.mp h
  obtain ⟨hs, hfilled⟩ := edgeRows_filled hrows
  cases h
  simp only [deleteEdge, hfilled, ok_bind]
  exact ⟨rfl, by rw [hs]; rfl, rfl, rfl, rfl⟩

theorem insertDeal_filled {d : DealRow} (h : s.insertDeal d = .ok t) :
    s.filled.insertDeal d = .ok t.filled ∧ s.SameTables t := by
  obtain ⟨rows, hrows, h⟩ := bind_eq_ok_iff.mp h
  obtain ⟨hs, hfilled⟩ := dealRows_filled hrows
  simp only [insertDeal, hfilled, ok_bind]
  by_cases hd : rows.any (·.id == d.id) = true
  · rw [if_pos hd] at h
    cases h
  · rw [if_neg hd] at h ⊢
    cases h
    exact ⟨rfl, rfl, by rw [hs]; rfl, rfl, rfl⟩

theorem insertSpending_filled {p : SpendingRow} (h : s.insertSpending p = .ok t) :
    s.filled.insertSpending p = .ok t.filled ∧ s.SameTables t := by
  obtain ⟨rows, hrows, h⟩ := bind_eq_ok_iff.mp h
  obtain ⟨deals, hdeals, h⟩ := bind_eq_ok_iff.mp h
  obtain ⟨hs, hfilled⟩ := spendingRows_filled hrows
  simp only [insertSpending, hfilled, (dealRows_filled hdeals).2, ok_bind]
  by_cases hp : rows.any (·.id == p.id) = true
  · rw [if_pos hp] at h
    cases h
  · rw [if_neg hp] at h ⊢
    by_cases hd : (!deals.any (·.id == p.dealId)) = true
    · rw [if_pos hd] at h
      cases h
    · rw [if_neg hd] at h ⊢
      cases h
      exact ⟨rfl, rfl, rfl, by rw [hs]; rfl, rfl⟩

theorem insertSpendings_filled {ps : List SpendingRow} (h : ps.foldlM insertSpending s = .ok t) :
    ps.foldlM insertSpending s.filled = .ok t.filled ∧ s.SameTables t := by
  induction ps generalizing s with
  | nil =>
    cases h
    exact ⟨rfl, .refl _⟩
  | cons p ps ih =>
    rw [List.foldlM_cons] at h ⊢
    obtain ⟨u, hu, h⟩ := bind_eq_ok_iff.mp h
    obtain ⟨hfirst, hsu⟩ := insertSpending_filled hu
    obtain ⟨hrest, hut⟩ := ih h
    rw [hfirst, ok_bind]
    exact ⟨hrest, hsu.trans hut⟩

theorem insertExpense_filled {rows : ExpenseRows} (h : s.insertExpense rows = .ok t) :
    s.filled.insertExpense rows = .ok t.filled ∧ s.SameTables t := by
  obtain ⟨u, hu, h⟩ := bind_eq_ok_iff.mp h
  obtain ⟨hdeal, hsu⟩ := insertDeal_filled hu
  obtain ⟨hspendings, hut⟩ := insertSpendings_filled h
  rw [insertExpense, hdeal, ok_bind]
  exact ⟨hspendings, hsu.trans hut⟩

theorem deleteExpense_filled {id : String} (h : s.deleteExpense id = .ok t) :
    s.filled.deleteExpense id = .ok t.filled ∧ s.SameTables t := by
  obtain ⟨rows, hrows, h⟩ := bind_eq_ok_iff.mp h
  obtain ⟨deals, hdeals, h⟩ := bind_eq_ok_iff.mp h
  obtain ⟨hs, hfilled⟩ := spendingRows_filled hrows
  obtain ⟨hsd, hfilled'⟩ := dealRows_filled hdeals
  cases h
  simp only [deleteExpense, hfilled, hfilled', ok_bind]
  exact ⟨rfl, rfl, by rw [hsd]; rfl, by rw [hs]; rfl, rfl⟩

theorem findExpense_filled {id : String} {rows : ExpenseRows}
    (h : s.findExpense id = .ok (some rows)) : s.filled.findExpense id = .ok (some rows) := by
  obtain ⟨deals, hdeals, h⟩ := bind_eq_ok_iff.mp h
  simp only [findExpense, (dealRows_filled hdeals).2, ok_bind]
  split at h
  · obtain ⟨spendings, hspendings, h⟩ := bind_eq_ok_iff.mp h
    simp only [(spendingRows_filled hspendings).2, ok_bind]
    exact h
  · cases h

/-- An expense is found as in the filled store once both tables are there. -/
theorem findExpense_eq_filled (hd : s.deals.isSome = true) (hp : s.spendings.isSome = true)
    (id : String) : s.findExpense id = s.filled.findExpense id := by
  obtain ⟨deals, hdeals⟩ := Option.isSome_iff_exists.mp hd
  obtain ⟨spendings, hspendings⟩ := Option.isSome_iff_exists.mp hp
  simp only [findExpense, dealRows, spendingRows, filled, heldDeals, heldSpendings, hdeals,
    hspendings, Option.getD_some]

end Statements
end Store

/-! ### Operations -/

def Book.filled (b : Book) : Book := { b with store := b.store.filled }

theorem RemoveExpense.take_filled {s t : Store} {id : Id} {rows : ExpenseRows} {x : Expense}
    (h : take s id = .ok (rows, x, t)) :
    take s.filled id = .ok (rows, x, t.filled) ∧ s.SameTables t := by
  obtain ⟨found, hfound, h⟩ := bind_eq_ok_iff.mp h
  have hfound := orDatabase_eq_ok_iff.mp hfound
  cases found with
  | none => cases h
  | some rows' =>
    obtain ⟨x', hx, h⟩ := bind_eq_ok_iff.mp h
    obtain ⟨t', ht, h⟩ := bind_eq_ok_iff.mp h
    cases h
    obtain ⟨hdelete, hst⟩ := Store.deleteExpense_filled (orDatabase_eq_ok_iff.mp ht)
    refine ⟨?_, hst⟩
    simp only [take, Store.findExpense_filled hfound, orDatabase, ok_bind, hx, hdelete]
    rfl

namespace Operation
variable {b b' : Book} {op op' : Operation}

theorem perform_filled {out : Output} (h : op.perform b = (.ok out, op', b')) :
    op.perform b.filled = (.ok out, op', b'.filled) ∧ b.store.SameTables b'.store := by
  cases op with
  | addEdge op =>
    simp only [perform, lift, AddEdge.perform] at h ⊢
    split at h
    · cases h
    · rename_i hnew
      split at h
      · rename_i s hs
        cases h
        obtain ⟨hfilled, hsame⟩ := Store.insertEdge_filled hs
        rw [if_neg hnew, Book.filled, hfilled]
        exact ⟨rfl, hsame⟩
      · cases h
      · cases h
  | removeEdge op =>
    simp only [perform, lift, RemoveEdge.perform] at h ⊢
    split at h
    · cases h
    · split at h
      · rename_i hit s hs
        cases h
        obtain ⟨hfilled, hsame⟩ := Store.deleteEdge_filled hs
        rw [Book.filled, hfilled]
        exact ⟨rfl, hsame⟩
      · cases h
  | addExpense op =>
    obtain ⟨e, inserted⟩ := op
    cases inserted with
    | some id => cases h
    | none =>
      cases hs : b.store.insertExpense (b.rowsFor e) with
      | error f =>
        rw [perform_addExpense_error hs] at h
        cases h
      | ok s =>
        rw [perform_addExpense_ok hs] at h
        cases h
        obtain ⟨hfilled, hsame⟩ := Store.insertExpense_filled hs
        exact ⟨perform_addExpense_ok (b := b.filled) hfilled, hsame⟩
  | removeExpense op =>
    simp only [perform, lift, RemoveExpense.perform] at h ⊢
    split at h
    · cases h
    · split at h
      · rename_i rows x s hs
        cases h
        obtain ⟨hfilled, hsame⟩ := RemoveExpense.take_filled hs
        rw [Book.filled, hfilled]
        exact ⟨rfl, hsame⟩
      · cases h
  | step op =>
    simp only [perform, lift, ScriptedStep.perform] at h ⊢
    split at h
    · cases h
    · cases h
      exact ⟨rfl, .refl _⟩

theorem reverse_filled (h : op.reverse b = (.ok (), op', b')) :
    op.reverse b.filled = (.ok (), op', b'.filled) ∧ b.store.SameTables b'.store := by
  cases op with
  | addEdge op =>
    simp only [reverse, AddEdge.reverse] at h ⊢
    split at h
    · rename_i hdone
      split at h
      · rename_i hit s hs
        cases h
        obtain ⟨hfilled, hsame⟩ := Store.deleteEdge_filled hs
        rw [if_pos hdone, Book.filled, hfilled]
        exact ⟨rfl, hsame⟩
      · cases h
    · cases h
  | removeEdge op =>
    simp only [reverse, RemoveEdge.reverse] at h ⊢
    split at h
    · cases h
    · cases h
      exact ⟨rfl, .refl _⟩
    · split at h
      · rename_i s hs
        cases h
        obtain ⟨hfilled, hsame⟩ := Store.insertEdge_filled hs
        rw [Book.filled, hfilled]
        exact ⟨rfl, hsame⟩
      · rename_i table hs
        cases h
        rw [Book.filled, Store.insertEdge_filled_error hs]
        exact ⟨rfl, .refl _⟩
      · cases h
  | addExpense op =>
    simp only [reverse, AddExpense.reverse] at h ⊢
    split at h
    · cases h
    · split at h
      · rename_i s hs
        cases h
        obtain ⟨hfilled, hsame⟩ := Store.deleteExpense_filled hs
        rw [Book.filled, hfilled]
        exact ⟨rfl, hsame⟩
      · cases h
  | removeExpense op =>
    simp only [reverse, RemoveExpense.reverse] at h ⊢
    split at h
    · cases h
    · split at h
      · rename_i s hs
        cases h
        obtain ⟨hfilled, hsame⟩ := Store.insertExpense_filled hs
        rw [Book.filled, hfilled]
        exact ⟨rfl, hsame⟩
      · cases h
  | step op =>
    simp only [reverse, ScriptedStep.reverse] at h ⊢
    split at h
    · cases h
    · cases h
      exact ⟨rfl, .refl _⟩

theorem effect_filled {out : Output} (h : op.perform b = (.ok out, op', b')) :
    Effect b.filled op out op' b'.filled :=
  effect_of_perform b.store.complete_filled (perform_filled h).1

theorem reversal_filled (h : op.reverse b = (.ok (), op', b')) :
    Reversal b.filled op op' b'.filled :=
  reversal_of_reverse b.store.complete_filled (reverse_filled h).1

/-! ### Ids -/

theorem Effect.nextId_le {out : Output} (h : Effect b op out op' b') : b.nextId ≤ b'.nextId := by
  cases h with
  | addExpense => exact Nat.le_add_right _ _
  | _ => exact Nat.le_refl _

theorem Reversal.nextId_eq (h : Reversal b op op' b') : b'.nextId = b.nextId := by
  cases h <;> rfl

theorem nextId_le_perform : b.nextId ≤ (op.perform b).2.2.nextId := by
  cases h : op.perform b with
  | mk answer rest =>
    obtain ⟨op', b'⟩ := rest
    cases answer with
    | ok out =>
      have heffect := effect_filled h
      exact heffect.nextId_le
    | error f =>
      rw [(perform_error h).2]
      exact Nat.le_add_right _ _

theorem nextId_reverse : (op.reverse b).2.2.nextId = b.nextId := by
  cases h : op.reverse b with
  | mk answer rest =>
    obtain ⟨op', b'⟩ := rest
    cases answer with
    | ok u =>
      have hreversal := reversal_filled h
      exact hreversal.nextId_eq
    | error f => rw [(reverse_error h).2]

end Operation
end FriendLedger
