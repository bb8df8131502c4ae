import FriendLedger.Operation
import FriendLedger.Proofs.Store.Place

/-! What operations do to a book whose tables are all there. `Effect` lists the
successful performances, `Reversal` the successful reversals; a call that fails
changes neither the store nor the trace nor the operation. -/

namespace FriendLedger

set_option autoImplicit false

/-- The rows under which the next expense is stored. -/
def Book.rowsFor (b : Book) (e : Expense) : ExpenseRows :=
  .ofExpense e (Id.minted b.nextId) (b.upcomingIds (e.shares.length + 1)).tail

theorem ExpenseRows.coherent_ofExpense (e : Expense) (id : Id) (shareIds : List Id) :
    (ExpenseRows.ofExpense e id shareIds).Coherent := by
  intro p hp
  simp only [ExpenseRows.ofExpense] at hp ⊢
  rw [← List.map_uncurry_zip_eq_zipWith] at hp
  obtain ⟨x, _, rfl⟩ := List.mem_map.mp hp
  rfl

theorem Store.coherent_spendingsAt {s : Store} {id : String} {d : DealRow}
    (hd : (s.dealsAt id).head? = some d) : (ExpenseRows.mk d (s.spendingsAt id)).Coherent := by
  have hid : d.id = id := by
    simpa using (List.mem_filter.mp (List.mem_of_mem_head? hd)).2
  intro p hp
  rw [hid]
  simpa using (List.mem_filter.mp hp).2

namespace Operation

def isScripted : Operation → Bool
  | .step _ => true
  | _ => false

/-- Whether there is something to undo. A scripted step does not tell. -/
def isPerformed : Operation → Bool
  | .addEdge op => op.performed
  | .removeEdge op => op.removed.isSome
  | .addExpense op => op.inserted.isSome
  | .removeExpense op => op.taken.isSome
  | .step _ => true

def idCount : Operation → Nat
  | .addExpense ⟨e, none⟩ => e.shares.length + 1
  | _ => 0

inductive Effect (b : Book) : Operation → Output → Operation → Book → Prop
  | addEdge {e : Edge} (he : e ∉ b.store.heldEdges) :
      Effect b (.addEdge ⟨e, false⟩) .done (.addEdge ⟨e, true⟩)
        { b with store := b.store.withEdge e }
  | removeEdge {e : Edge} :
      Effect b (.removeEdge ⟨e, none⟩) .done (.removeEdge ⟨e, some (decide (e ∈ b.store.heldEdges))⟩)
        { b with store := b.store.withoutEdge e }
  | addExpense {e : Expense} (ha : b.store.Admits (b.rowsFor e)) :
      Effect b (.addExpense ⟨e, none⟩) (.added (Id.minted b.nextId))
        (.addExpense ⟨e, some (Id.minted b.nextId)⟩)
        { b.useIds (e.shares.length + 1) with store := b.store.withExpense (b.rowsFor e) }
  | removeExpense {id : Id} {d : DealRow} {x : Expense}
      (hd : (b.store.dealsAt id.toText).head? = some d)
      (hx : (ExpenseRows.mk d (b.store.spendingsAt id.toText)).decode = .ok x) :
      Effect b (.removeExpense ⟨id, none⟩) (.removed x)
        (.removeExpense ⟨id, some ⟨d, b.store.spendingsAt id.toText⟩⟩)
        { b with store := b.store.withoutExpense id.toText }
  | step {op : ScriptedStep} (hp : op.performFailure = none) :
      Effect b (.step op) (.number op.number) (.step op) { b with trace := b.trace ++ [op.number] }

inductive Reversal (b : Book) : Operation → Operation → Book → Prop
  | addEdge {e : Edge} :
      Reversal b (.addEdge ⟨e, true⟩) (.addEdge ⟨e, false⟩)
        { b with store := b.store.withoutEdge e }
  | removeEdge_missed {e : Edge} :
      Reversal b (.removeEdge ⟨e, some false⟩) (.removeEdge ⟨e, none⟩) b
  | removeEdge {e : Edge} :
      Reversal b (.removeEdge ⟨e, some true⟩) (.removeEdge ⟨e, none⟩)
        { b with store := b.store.restoreEdge e }
  | addExpense {e : Expense} {id : Id} :
      Reversal b (.addExpense ⟨e, some id⟩) (.addExpense ⟨e, none⟩)
        { b with store := b.store.withoutExpense id.toText }
  | removeExpense {id : Id} {rows : ExpenseRows} {s : Store}
      (hs : b.store.insertExpense rows = .ok s) :
      Reversal b (.removeExpense ⟨id, some rows⟩) (.removeExpense ⟨id, none⟩) { b with store := s }
  | step {op : ScriptedStep} (hr : op.reverseFailure = none) :
      Reversal b (.step op) (.step op) { b with trace := b.trace ++ [-op.number] }

section Laws
variable {b b' : Book} {op op' : Operation} {out : Output}

theorem Effect.isScripted_eq (h : Effect b op out op' b') : op'.isScripted = op.isScripted := by
  cases h <;> rfl

theorem Effect.isPerformed_eq (h : Effect b op out op' b') : op'.isPerformed = true := by
  cases h <;> rfl

theorem Reversal.isScripted_eq (h : Reversal b op op' b') : op'.isScripted = op.isScripted := by
  cases h <;> rfl

theorem Reversal.isPerformed_of (h : Reversal b op op' b') : op.isPerformed = true := by
  cases h <;> rfl

/-- What was undone is as it was built. -/
theorem Reversal.isPerformed_eq (h : Reversal b op op' b') (hs : op.isScripted = false) :
    op'.isPerformed = false := by
  cases h with
  | step => cases hs
  | _ => rfl

end Laws

section Failing
variable {b b' : Book} {op op' : Operation} {f : Failure}

/-- A performance that fails has done nothing but to use up ids. -/
theorem perform_error (h : op.perform b = (.error f, op', b')) :
    op' = op ∧ b' = b.useIds op.idCount := by
  cases op with
  | addEdge op =>
    simp only [perform, lift, AddEdge.perform] at h
    split at h
    · cases h
      exact ⟨rfl, rfl⟩
    · split at h
      · cases h
      · cases h
        exact ⟨rfl, rfl⟩
      · cases h
        exact ⟨rfl, rfl⟩
  | removeEdge op =>
    simp only [perform, lift, RemoveEdge.perform] at h
    split at h
    · cases h
      exact ⟨rfl, rfl⟩
    · split at h
      · cases h
      · cases h
        exact ⟨rfl, rfl⟩
  | addExpense op =>
    obtain ⟨e, inserted⟩ := op
    cases inserted with
    | some id =>
      cases h
      exact ⟨rfl, rfl⟩
    | none =>
      simp only [perform, lift, AddExpense.perform] at h
      split at h
      · cases h
      · cases h
        exact ⟨rfl, rfl⟩
  | removeExpense op =>
    simp only [perform, lift, RemoveExpense.perform] at h
    split at h
    · cases h
      exact ⟨rfl, rfl⟩
    · split at h
      · cases h
      · cases h
        exact ⟨rfl, rfl⟩
  | step op =>
    simp only [perform, lift, ScriptedStep.perform] at h
    split at h
    · cases h
      exact ⟨rfl, rfl⟩
    · cases h

theorem reverse_error (h : op.reverse b = (.error f, op', b')) : op' = op ∧ b' = b := by
  cases op with
  | addEdge op =>
    simp only [reverse, AddEdge.reverse] at h
    split at h
    · split at h <;> cases h
      exact ⟨rfl, rfl⟩
    · cases h
      exact ⟨rfl, rfl⟩
  | removeEdge op =>
    simp only [reverse, RemoveEdge.reverse] at h
    split at h
    · cases h
      exact ⟨rfl, rfl⟩
    · cases h
    · split at h <;> cases h
      exact ⟨rfl, rfl⟩
  | addExpense op =>
    simp only [reverse, AddExpense.reverse] at h
    split at h
    · cases h
      exact ⟨rfl, rfl⟩
    · split at h <;> cases h
      exact ⟨rfl, rfl⟩
  | removeExpense op =>
    simp only [reverse, RemoveExpense.reverse] at h
    split at h
    · cases h
      exact ⟨rfl, rfl⟩
    · split at h <;> cases h
      exact ⟨rfl, rfl⟩
  | step op =>
    simp only [reverse, ScriptedStep.reverse] at h
    split at h <;> cases h
    exact ⟨rfl, rfl⟩

theorem perform_of_performed (h : op.isPerformed = true) (hs : op.isScripted = false) (b : Book) :
    op.perform b = (.error (alreadyPerformed op.describe), op, b) := by
  cases op with
  | addEdge op =>
    obtain ⟨e, performed⟩ := op
    cases performed <;> cases h
    rfl
  | removeEdge op =>
    obtain ⟨e, removed⟩ := op
    cases removed <;> cases h
    rfl
  | addExpense op =>
    obtain ⟨e, inserted⟩ := op
    cases inserted <;> cases h
    rfl
  | removeExpense op =>
    obtain ⟨id, taken⟩ := op
    cases taken <;> cases h
    rfl
  | step op => cases hs

theorem reverse_of_not_performed (h : op.isPerformed = false) (b : Book) :
    op.reverse b = (.error (notPerformed op.describe), op, b) := by
  cases op with
  | addEdge op =>
    obtain ⟨e, performed⟩ := op
    cases performed <;> cases h
    rfl
  | removeEdge op =>
    obtain ⟨e, removed⟩ := op
    cases removed <;> cases h
    rfl
  | addExpense op =>
    obtain ⟨e, inserted⟩ := op
    cases inserted <;> cases h
    rfl
  | removeExpense op =>
    obtain ⟨id, taken⟩ := op
    cases taken <;> cases h
    rfl
  | step op => cases h

end Failing

section Adding
variable {b : Book} {e : Expense}

/-- An addition succeeds exactly when the rows under the next ids can be inserted. -/
theorem perform_addExpense_ok {s : Store} (h : b.store.insertExpense (b.rowsFor e) = .ok s) :
    perform (.addExpense ⟨e, none⟩) b = (.ok (.added (Id.minted b.nextId)),
      .addExpense ⟨e, some (Id.minted b.nextId)⟩,
      { b.useIds (e.shares.length + 1) with store := s }) := by
  rw [Book.rowsFor] at h
  simp only [perform, lift, AddExpense.perform, AddExpense.idCount, Book.useIds, h]
  rfl

theorem perform_addExpense_error {f : StoreFault}
    (h : b.store.insertExpense (b.rowsFor e) = .error f) :
    perform (.addExpense ⟨e, none⟩) b = (.error (.database f), .addExpense ⟨e, none⟩,
      b.useIds (e.shares.length + 1)) := by
  rw [Book.rowsFor] at h
  simp only [perform, lift, AddExpense.perform, AddExpense.idCount, Book.useIds, h]
  rfl

end Adding

section Complete
variable {b b' : Book} {op op' : Operation} (hc : b.store.Complete)
include hc

theorem take_eq_ok_iff {id : Id} {rows : ExpenseRows} {x : Expense} {s : Store} :
    RemoveExpense.take b.store id = .ok (rows, x, s) ↔
      ∃ d, (b.store.dealsAt id.toText).head? = some d ∧
        rows = ⟨d, b.store.spendingsAt id.toText⟩ ∧ rows.decode = .ok x ∧
        s = b.store.withoutExpense id.toText := by
  simp only [RemoveExpense.take, hc.findExpense_eq, hc.deleteExpense_eq, orDatabase, ok_bind]
  cases hd : (b.store.dealsAt id.toText).head? with
  | none => simp
  | some d =>
    simp only [Option.map_some, bind_eq_ok_iff, pure_eq_ok, Except.ok.injEq, Prod.mk.injEq,
      Option.some.injEq]
    constructor
    · rintro ⟨y, hy, rfl, rfl, rfl⟩
      exact ⟨d, rfl, rfl, hy, rfl⟩
    · rintro ⟨_, rfl, rfl, hx, rfl⟩
      exact ⟨x, hx, rfl, rfl, rfl⟩

theorem effect_of_perform {out : Output} (h : op.perform b = (.ok out, op', b')) :
    Effect b op out op' b' := by
  cases op with
  | addEdge op =>
    obtain ⟨e, performed⟩ := op
    simp only [perform, lift, AddEdge.perform, hc.insertEdge_eq] at h
    cases performed with
    | true => cases h
    | false =>
      by_cases he : e ∈ b.store.heldEdges
      · simp only [if_pos he] at h
        cases h
      · simp only [if_neg he] at h
        cases h
        exact .addEdge he
  | removeEdge op =>
    obtain ⟨e, removed⟩ := op
    simp only [perform, lift, RemoveEdge.perform, hc.deleteEdge_eq] at h
    cases removed <;> cases h
    exact .removeEdge
  | addExpense op =>
    obtain ⟨e, inserted⟩ := op
    cases inserted with
    | some id => cases h
    | none =>
      cases hs : b.store.insertExpense (b.rowsFor e) with
      | error f =>
        rw [perform_addExpense_error hs] at h
        cases h
      | ok s =>
        rw [perform_addExpense_ok hs] at h
        obtain ⟨ha, rfl⟩ :=
          (hc.insertExpense_eq_ok_iff (ExpenseRows.coherent_ofExpense _ _ _)).mp hs
        cases h
        exact .addExpense ha
  | removeExpense op =>
    obtain ⟨id, taken⟩ := op
    simp only [perform, lift, RemoveExpense.perform] at h
    cases taken with
    | some rows => cases h
    | none =>
      cases ht : RemoveExpense.take b.store id with
      | error f =>
        simp only [ht] at h
        cases h
      | ok r =>
        obtain ⟨rows, x, s⟩ := r
        simp only [ht] at h
        obtain ⟨d, hd, rfl, hx, rfl⟩ := (take_eq_ok_iff hc).mp ht
        cases h
        exact .removeExpense hd hx
  | step op =>
    simp only [perform, lift, ScriptedStep.perform] at h
    cases hf : op.performFailure with
    | some f =>
      simp only [hf] at h
      cases h
    | none =>
      simp only [hf] at h
      cases h
      exact .step hf

theorem perform_of_effect {out : Output} (h : Effect b op out op' b') :
    op.perform b = (.ok out, op', b') := by
  cases h with
  | addEdge he => simp [perform, lift, AddEdge.perform, hc.insertEdge_eq, he, Except.map]
  | removeEdge => simp [perform, lift, RemoveEdge.perform, hc.deleteEdge_eq, Except.map]
  | @addExpense e ha =>
    have hr : (b.rowsFor e).Coherent := ExpenseRows.coherent_ofExpense _ _ _
    exact perform_addExpense_ok ((hc.insertExpense_eq_ok_iff hr).mpr ⟨ha, rfl⟩)
  | removeExpense hd hx =>
    have ht := (take_eq_ok_iff hc).mpr ⟨_, hd, rfl, hx, rfl⟩
    simp [perform, lift, RemoveExpense.perform, ht, Except.map]
  | step hp => simp [perform, lift, ScriptedStep.perform, hp, Except.map]

/-- Performing succeeds exactly with the effects listed. -/
theorem perform_eq_ok_iff {out : Output} :
    op.perform b = (.ok out, op', b') ↔ Effect b op out op' b' :=
  ⟨effect_of_perform hc, perform_of_effect hc⟩

theorem reversal_of_reverse (h : op.reverse b = (.ok (), op', b')) : Reversal b op op' b' := by
  cases op with
  | addEdge op =>
    obtain ⟨e, performed⟩ := op
    simp only [reverse, AddEdge.reverse, hc.deleteEdge_eq] at h
    cases performed <;> cases h
    exact .addEdge
  | removeEdge op =>
    obtain ⟨e, removed⟩ := op
    simp only [reverse, RemoveEdge.reverse, hc.insertEdge_eq] at h
    rcases removed with _ | _ | _
    · cases h
    · cases h
      exact .removeEdge_missed
    · have hr := Reversal.removeEdge (b := b) (e := e)
      by_cases he : e ∈ b.store.heldEdges
      · simp only [if_pos he] at h
        cases h
        simpa only [Store.restoreEdge, if_pos he] using hr
      · simp only [if_neg he] at h
        cases h
        simpa only [Store.restoreEdge, if_neg he] using hr
  | addExpense op =>
    obtain ⟨e, inserted⟩ := op
    simp only [reverse, AddExpense.reverse, hc.deleteExpense_eq] at h
    cases inserted <;> cases h
    exact .addExpense
  | removeExpense op =>
    obtain ⟨id, taken⟩ := op
    simp only [reverse, RemoveExpense.reverse] at h
    cases taken with
    | none => cases h
    | some rows =>
      cases hs : b.store.insertExpense rows with
      | error f =>
        simp only [hs] at h
        cases h
      | ok s =>
        simp only [hs] at h
        cases h
        exact .removeExpense hs
  | step op =>
    simp only [reverse, ScriptedStep.reverse] at h
    cases hf : op.reverseFailure with
    | some f =>
      simp only [hf] at h
      cases h
    | none =>
      simp only [hf] at h
      cases h
      exact .step hf

theorem reverse_of_reversal (h : Reversal b op op' b') : op.reverse b = (.ok (), op', b') := by
  cases h with
  | addEdge => simp [reverse, AddEdge.reverse, hc.deleteEdge_eq]
  | removeEdge_missed => rfl
  | @removeEdge e =>
    by_cases he : e ∈ b.store.heldEdges
    · simp [reverse, RemoveEdge.reverse, hc.insertEdge_eq, Store.restoreEdge, he]
    · simp [reverse, RemoveEdge.reverse, hc.insertEdge_eq, Store.restoreEdge, he]
  | addExpense => simp [reverse, AddExpense.reverse, hc.deleteExpense_eq]
  | removeExpense hs => simp [reverse, RemoveExpense.reverse, hs]
  | step hr => simp [reverse, ScriptedStep.reverse, hr]

theorem reverse_eq_ok_iff : op.reverse b = (.ok (), op', b') ↔ Reversal b op op' b' :=
  ⟨reversal_of_reverse hc, reverse_of_reversal hc⟩

end Complete
end Operation
end FriendLedger
