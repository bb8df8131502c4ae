import FriendLedger.Proofs.Operation.Filled
import FriendLedger.Proofs.Operation.Undo

/-! When a reversal succeeds, whichever tables are there. A performed operation can be
undone exactly when the tables that its rows belong to are there and, for a removal, the
keys of the rows it kept are free; otherwise the reversal fails for the store's reason,
wrapped once, and changes nothing. -/

namespace FriendLedger

set_option autoImplicit false

namespace Store
variable {s u : Store} {rows : ExpenseRows}

/-- The rows of an expense can be inserted. The spendings need their table only when
there are any. -/
structure Accepts (s : Store) (rows : ExpenseRows) : Prop where
  deals : s.deals.isSome = true
  spendings : rows.spendings ≠ [] → s.spendings.isSome = true
  admits : s.Admits rows

theorem insertDeal_of_filled {d : DealRow} (hd : s.deals.isSome = true)
    (h : s.filled.insertDeal d = .ok u) : ∃ t, s.insertDeal d = .ok t := by
  obtain ⟨deals, hdeals⟩ := Option.isSome_iff_exists.mp hd
  simp only [insertDeal, dealRows, filled, heldDeals, hdeals, Option.getD_some, rowsOf,
    ok_bind] at h ⊢
  split at h
  · cases h
  · rename_i hnew
    rw [if_neg hnew]
    exact ⟨_, rfl⟩

theorem insertSpending_of_filled {p : SpendingRow} (hd : s.deals.isSome = true)
    (hp : s.spendings.isSome = true) (h : s.filled.insertSpending p = .ok u) :
    ∃ t, s.insertSpending p = .ok t := by
  obtain ⟨deals, hdeals⟩ := Option.isSome_iff_exists.mp hd
  obtain ⟨spendings, hspendings⟩ := Option.isSome_iff_exists.mp hp
  simp only [insertSpending, dealRows, spendingRows, filled, heldDeals, heldSpendings, hdeals,
    hspendings, Option.getD_some, rowsOf, ok_bind] at h ⊢
  split at h
  · cases h
  · rename_i hnew
    rw [if_neg hnew]
    split at h
    · cases h
    · rename_i hdeal
      rw [if_neg hdeal]
      exact ⟨_, rfl⟩

theorem insertSpendings_of_filled {ps : List SpendingRow} (hd : s.deals.isSome = true)
    (hp : s.spendings.isSome = true) (h : ps.foldlM insertSpending s.filled = .ok u) :
    ∃ t, ps.foldlM insertSpending s = .ok t := by
  induction ps generalizing s with
  | nil => exact ⟨s, rfl⟩
  | cons p ps ih =>
    obtain ⟨first, hfirst, hrest⟩ := bind_eq_ok_iff.mp h
    obtain ⟨t, ht⟩ := insertSpending_of_filled hd hp hfirst
    obtain ⟨hfilled, hsame⟩ := insertSpending_filled ht
    cases hfirst.symm.trans hfilled
    obtain ⟨v, hv⟩ := ih (hsame.deals ▸ hd) (hsame.spendings ▸ hp) hrest
    exact ⟨v, by rw [List.foldlM_cons, ht, ok_bind, hv]⟩

theorem accepts_of_insertExpense (hr : rows.Coherent) (h : s.insertExpense rows = .ok u) :
    s.Accepts rows := by
  obtain ⟨hadmits, -⟩ := (s.complete_filled.insertExpense_eq_ok_iff hr).mp (insertExpense_filled h).1
  obtain ⟨t, ht, hspendings⟩ := bind_eq_ok_iff.mp h
  obtain ⟨deals, hdeals, -⟩ := bind_eq_ok_iff.mp ht
  have hpresent : s.deals.isSome = true := by
    rw [(dealRows_filled hdeals).1]
    rfl
  refine ⟨hpresent, ?_, ⟨hadmits.deal, hadmits.nodup, hadmits.spendings⟩⟩
  intro hne
  obtain ⟨p, ps, hps⟩ := List.exists_cons_of_ne_nil hne
  rw [hps] at hspendings
  obtain ⟨v, hv, -⟩ := bind_eq_ok_iff.mp hspendings
  obtain ⟨held, hheld, -⟩ := bind_eq_ok_iff.mp hv
  rw [(insertDeal_filled ht).2.spendings, (spendingRows_filled hheld).1]
  rfl

theorem Accepts.insertExpense (hr : rows.Coherent) (h : s.Accepts rows) :
    ∃ t, s.insertExpense rows = .ok t := by
  have hadmits : s.filled.Admits rows := ⟨h.admits.deal, h.admits.nodup, h.admits.spendings⟩
  have hfilled := (s.complete_filled.insertExpense_eq_ok_iff hr).mpr ⟨hadmits, rfl⟩
  obtain ⟨u, hu, hspendings⟩ := bind_eq_ok_iff.mp hfilled
  obtain ⟨t, ht⟩ := insertDeal_of_filled h.deals hu
  obtain ⟨hdeal, hsame⟩ := insertDeal_filled ht
  cases hu.symm.trans hdeal
  rw [Store.insertExpense, ht, ok_bind]
  by_cases hnil : rows.spendings = []
  · rw [hnil]
    exact ⟨t, rfl⟩
  · exact insertSpendings_of_filled (hsame.deals ▸ h.deals) (hsame.spendings ▸ h.spendings hnil)
      hspendings

end Store

namespace Operation
variable {b b' c c' : Book} {op op' : Operation} {f : Failure}

/-- The store can take back what a performed operation has done. -/
def AcceptedBy (s : Store) : Operation → Prop
  | .addEdge _ | .removeEdge ⟨_, some true⟩ => s.edges.isSome = true
  | .addExpense _ => s.deals.isSome = true ∧ s.spendings.isSome = true
  | .removeExpense ⟨_, some rows⟩ => s.Accepts rows
  | _ => True

theorem reverse_eq_ok_iff_acceptedBy (hp : op.isPerformed = true) (hs : op.isScripted = false)
    (hk : op.KeepsExpense) (c : Book) : (op.reverse c).1 = .ok () ↔ op.AcceptedBy c.store := by
  cases op with
  | addEdge op =>
    obtain ⟨e, performed⟩ := op
    cases performed <;> cases hp
    simp only [reverse, AddEdge.reverse, AcceptedBy, Store.deleteEdge, Store.edgeRows]
    cases c.store.edges <;> simp [Store.rowsOf]
  | removeEdge op =>
    obtain ⟨e, removed⟩ := op
    rcases removed with _ | _ | _
    · cases hp
    · exact ⟨fun _ => trivial, fun _ => rfl⟩
    · simp only [reverse, RemoveEdge.reverse, AcceptedBy, Store.insertEdge, Store.edgeRows]
      cases c.store.edges with
      | none => simp [Store.rowsOf]
      | some rows => by_cases he : e ∈ rows <;> simp [Store.rowsOf, he]
  | addExpense op =>
    obtain ⟨x, inserted⟩ := op
    cases inserted <;> cases hp
    simp only [reverse, AddExpense.reverse, AcceptedBy, Store.deleteExpense, Store.spendingRows,
      Store.dealRows]
    cases c.store.spendings <;> cases c.store.deals <;> simp [Store.rowsOf]
  | removeExpense op =>
    obtain ⟨id, taken⟩ := op
    cases taken with
    | none => cases hp
    | some rows =>
      simp only [reverse, RemoveExpense.reverse, AcceptedBy]
      constructor
      · intro h
        split at h
        · rename_i s hins
          exact Store.accepts_of_insertExpense hk.1 hins
        · cases h
      · intro h
        obtain ⟨s, hins⟩ := h.insertExpense hk.1
        rw [hins]
  | step op => cases hs

/-- A store that refuses a reversal is the only reason for one to fail. -/
theorem reverse_store_failure (h : op.reverse b = (.error f, op', b')) (hp : op.isPerformed = true)
    (hs : op.isScripted = false) : ∃ fault, f = .rollbackFailed (.database fault) := by
  cases op with
  | addEdge op =>
    simp only [reverse, AddEdge.reverse] at h
    split at h
    · split at h <;> cases h
      exact ⟨_, rfl⟩
    · rename_i hnew
      exact absurd hp hnew
  | removeEdge op =>
    simp only [reverse, RemoveEdge.reverse] at h
    split at h
    · rename_i hnew
      rw [isPerformed, hnew] at hp
      cases hp
    · cases h
    · split at h <;> cases h
      exact ⟨_, rfl⟩
  | addExpense op =>
    simp only [reverse, AddExpense.reverse] at h
    split at h
    · rename_i hnew
      rw [isPerformed, hnew] at hp
      cases hp
    · split at h <;> cases h
      exact ⟨_, rfl⟩
  | removeExpense op =>
    simp only [reverse, RemoveExpense.reverse] at h
    split at h
    · rename_i hnew
      rw [isPerformed, hnew] at hp
      cases hp
    · split at h <;> cases h
      exact ⟨_, rfl⟩
  | step op => cases hs

/-! ### Calls that do not succeed -/

/-- What a call does when it does not succeed, whatever is stored and whichever tables are
there: nothing but to use up ids, and why. -/
structure Atomic (op : Operation) : Prop where
  perform_failed {b b' : Book} {op' : Operation} {f : Failure} :
    op.perform b = (.error f, op', b') → op' = op ∧ ∃ n, b' = b.useIds n
  reverse_failed {b b' : Book} {op' : Operation} {f : Failure} :
    op.reverse b = (.error f, op', b') → op' = op ∧ b' = b
  perform_again : op.isPerformed = true →
    ∀ b, op.perform b = (.error (alreadyPerformed op.describe), op, b)
  reverse_early : op.isPerformed = false →
    ∀ b, op.reverse b = (.error (notPerformed op.describe), op, b)
  /-- A journal that reverses the operation does not wrap the failure again. -/
  store_failure {b b' : Book} {op' : Operation} {f : Failure} : op.isPerformed = true →
    op.reverse b = (.error f, op', b') →
      ∃ fault, f = .rollbackFailed (.database fault) ∧ Journal.reverseAll [op] b = (.error f, b)

theorem atomic (hs : op.isScripted = false) : op.Atomic where
  perform_failed h := by
    obtain ⟨hop, hb⟩ := perform_error h
    exact ⟨hop, _, hb⟩
  reverse_failed h := reverse_error h
  perform_again hp b := perform_of_performed hp hs b
  reverse_early hp b := reverse_of_not_performed hp b
  store_failure hp h := by
    obtain ⟨fault, rfl⟩ := reverse_store_failure h hp hs
    obtain ⟨-, rfl⟩ := reverse_error h
    refine ⟨fault, rfl, ?_⟩
    simp only [Journal.reverseAll, h]
    rfl

/-! ### Undoing a performance later -/

/-- The operation keeps what its performance has found in the book, or taken from it. -/
def Captured (found : Book) : Operation → Prop
  | .removeEdge ⟨e, some hit⟩ => hit = decide (e ∈ found.store.heldEdges)
  | .addExpense ⟨_, some id⟩ => id = Id.minted found.nextId
  | .removeExpense ⟨id, some rows⟩ =>
    (found.store.dealsAt id.toText).head? = some rows.deal ∧
      rows.spendings = found.store.spendingsAt id.toText
  | _ => True

theorem Effect.captured {out : Output} (h : Effect b op out op' b') : op'.Captured b := by
  cases h with
  | removeEdge => exact rfl
  | addExpense => exact rfl
  | removeExpense hd => exact ⟨hd, rfl⟩
  | _ => trivial

/-- What becomes of undoing an operation that was performed on the book `found`, on any
book later. -/
structure Revocation (op : Operation) (found c : Book) : Prop where
  captured : op.Captured found
  accepted : (op.reverse c).1 = .ok () ↔ op.AcceptedBy c.store
  refused : ¬ op.AcceptedBy c.store →
    ∃ fault, op.reverse c = (.error (.rollbackFailed (.database fault)), op, c)
  /-- The rows that are written are those that the operation has kept. -/
  rows {op' : Operation} {c' : Book} : op.reverse c = (.ok (), op', c') →
    c'.store.filled = op.undone c.store.filled ∧ c.store.SameTables c'.store
  /-- As long as the keys of the schema hold, the place that was changed is as it was found. -/
  restores {op' : Operation} {c' : Book} : op.reverse c = (.ok (), op', c') →
    found.store.filled.Keyed → c.store.filled.Keyed → ∀ p,
      (op.writes? = some p → c'.store.AgreesAt found.store p) ∧
      (op.writes? ≠ some p → c'.store.AgreesAt c.store p)

theorem revocation_of_perform {out : Output} (h : op.perform b = (.ok out, op', b'))
    (hs : op.isScripted = false) (c : Book) : op'.Revocation b c := by
  have heff := effect_filled h
  have hs' : op'.isScripted = false := heff.isScripted_eq.trans hs
  have hiff := reverse_eq_ok_iff_acceptedBy heff.isPerformed_eq hs' heff.keepsExpense c
  refine ⟨heff.captured, hiff, ?_, ?_, ?_⟩
  · intro hrefused
    cases hrev : op'.reverse c with
    | mk answer rest =>
      obtain ⟨op'', c'⟩ := rest
      cases answer with
      | ok u => exact absurd (hiff.mp (by rw [hrev])) hrefused
      | error f =>
        obtain ⟨fault, rfl⟩ := reverse_store_failure hrev heff.isPerformed_eq hs'
        obtain ⟨rfl, rfl⟩ := reverse_error hrev
        exact ⟨fault, rfl⟩
  · intro op'' c' hrev
    have hreversal := reversal_filled hrev
    obtain ⟨-, hstore⟩ := hreversal.undoable c.store.complete_filled heff.keepsExpense hs'
    exact ⟨hstore, (reverse_filled hrev).2⟩
  · intro op'' c' hrev hfound hc p
    have hreversal := reversal_filled hrev
    constructor
    · intro hp
      have hback := heff.restores hfound hc hp hreversal
      exact hback
    · intro hp
      exact hreversal.agreesAt_of_writes c.store.complete_filled heff.keepsExpense hp

end Operation
end FriendLedger
