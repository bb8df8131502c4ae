import FriendLedger.Journal
import FriendLedger.Proofs.Operation.Effect

/-! Undoing performed operations. `undone` is the store after a reversal that
succeeds. Undoing an operation right after it was performed leads back to rows
that agree everywhere; undoing it later does the same at its place, as long as
nobody else has written there and the ids of deleted spendings stay free. -/

namespace FriendLedger

set_option autoImplicit false

namespace Operation

def place? : Operation → Option Place
  | .addEdge op => some (.edge op.edge)
  | .removeEdge op => some (.edge op.edge)
  | .addExpense op => op.inserted.map fun id => .expense id.toText
  | .removeExpense op => some (.expense op.id.toText)
  | .step _ => none

/-- The ids of the spendings that the operation keeps for its reversal. -/
def takenIds : Operation → List String
  | .removeExpense ⟨_, some rows⟩ => rows.spendings.map (·.id)
  | _ => []

def undone (s : Store) : Operation → Store
  | .addEdge op => s.withoutEdge op.edge
  | .removeEdge ⟨e, some true⟩ => s.restoreEdge e
  | .addExpense ⟨_, some id⟩ => s.withoutExpense id.toText
  | .removeExpense ⟨_, some rows⟩ => s.withExpense rows
  | _ => s

/-- A performed operation whose reversal the store accepts. -/
inductive Undoable (s : Store) : Operation → Prop
  | addEdge {e : Edge} : Undoable s (.addEdge ⟨e, true⟩)
  | removeEdge {e : Edge} {hit : Bool} : Undoable s (.removeEdge ⟨e, some hit⟩)
  | addExpense {x : Expense} {id : Id} : Undoable s (.addExpense ⟨x, some id⟩)
  | removeExpense {id : Id} {rows : ExpenseRows} (hr : rows.Coherent)
      (hid : rows.deal.id = id.toText) (ha : s.Admits rows) :
      Undoable s (.removeExpense ⟨id, some rows⟩)

variable {s t : Store} {op : Operation} {p : Place}

theorem Undoable.reverse_eq {b : Book} (hc : b.store.Complete) (h : op.Undoable b.store) :
    ∃ op', op.reverse b = (.ok (), op', { b with store := op.undone b.store }) := by
  cases h with
  | addEdge => exact ⟨_, reverse_of_reversal hc .addEdge⟩
  | @removeEdge e hit =>
    cases hit with
    | true => exact ⟨_, reverse_of_reversal hc .removeEdge⟩
    | false => exact ⟨_, reverse_of_reversal hc .removeEdge_missed⟩
  | addExpense => exact ⟨_, reverse_of_reversal hc .addExpense⟩
  | removeExpense hr _ ha =>
    exact ⟨_, reverse_of_reversal hc (.removeExpense ((hc.insertExpense_eq_ok_iff hr).mpr ⟨ha, rfl⟩))⟩

theorem Undoable.keyed_undone (hk : s.Keyed) (h : op.Undoable s) : (op.undone s).Keyed := by
  cases h with
  | addEdge => exact hk.withoutEdge _
  | @removeEdge e hit =>
    cases hit with
    | true => exact hk.restoreEdge e
    | false => exact hk
  | addExpense => exact hk.withoutExpense _
  | removeExpense hr _ ha => exact hk.withExpense hr ha

theorem Undoable.undone_agreesAt (h : op.Undoable s) (hp : op.place? ≠ some p) :
    (op.undone t).AgreesAt t p := by
  cases h with
  | @addEdge e =>
    cases p with
    | edge e' =>
      have hne : e' ≠ e := fun he => hp (he ▸ rfl)
      simp [undone, Store.AgreesAt, hne]
    | expense id => exact ⟨rfl, rfl⟩
  | @removeEdge e hit =>
    cases hit with
    | false => exact .refl t _
    | true =>
      cases p with
      | edge e' =>
        have hne : e' ≠ e := fun he => hp (he ▸ rfl)
        simp [undone, Store.AgreesAt, Store.mem_heldEdges_restoreEdge, hne]
      | expense id => simp [undone, Store.AgreesAt, Store.dealsAt, Store.spendingsAt]
  | @addExpense x id =>
    cases p with
    | edge e => exact Iff.rfl
    | expense id' =>
      have hne : id' ≠ id.toText := fun he => hp (he ▸ rfl)
      simp [undone, Store.AgreesAt, Store.dealsAt_withoutExpense,
        Store.spendingsAt_withoutExpense, hne]
  | @removeExpense id rows hr hid ha =>
    cases p with
    | edge e => exact Iff.rfl
    | expense id' =>
      have hne : rows.deal.id ≠ id' := fun he => hp (by rw [← he, hid]; rfl)
      simp [undone, Store.AgreesAt, Store.dealsAt_withExpense, Store.spendingsAt_withExpense hr, hne]

/-- A reversal acts in the same way on stores that agree. -/
theorem Undoable.undone_congr {u : Store} (h : op.Undoable u) (hst : s.AgreesAt t p) :
    (op.undone s).AgreesAt (op.undone t) p := by
  by_cases hp : op.place? = some p
  · cases h with
    | @addEdge e =>
      cases hp
      simp [undone, Store.AgreesAt]
    | @removeEdge e hit =>
      cases hp
      cases hit with
      | false => exact hst
      | true => simp [undone, Store.AgreesAt, Store.mem_heldEdges_restoreEdge]
    | @addExpense x id =>
      cases hp
      simp [undone, Store.AgreesAt, Store.dealsAt_withoutExpense, Store.spendingsAt_withoutExpense]
    | @removeExpense id rows hr hid ha =>
      cases hp
      obtain ⟨hd, hs⟩ := hst
      simp [undone, Store.AgreesAt, Store.dealsAt_withExpense, Store.spendingsAt_withExpense hr,
        hd, hs]
  · exact ((h.undone_agreesAt hp).trans hst).trans (h.undone_agreesAt hp).symm

/-- Undoing takes back what performing has done. -/
theorem Effect.undoes {b b' : Book} {op' : Operation} {out : Output} (hk : b.store.Keyed)
    (h : Effect b op out op' b') (hs : op.isScripted = false) :
    op'.Undoable b'.store ∧ (op'.undone b'.store).Agrees b.store := by
  cases h with
  | @addEdge e he =>
    refine ⟨.addEdge, ?_⟩
    intro p
    cases p with
    | edge e' =>
      by_cases hne : e' = e
      · subst hne
        simp [undone, Store.AgreesAt, he]
      · simp [undone, Store.AgreesAt, hne]
    | expense id => exact ⟨rfl, rfl⟩
  | @removeEdge e =>
    refine ⟨.removeEdge, ?_⟩
    intro p
    cases p with
    | edge e' =>
      by_cases he : e ∈ b.store.heldEdges
      · by_cases hne : e' = e
        · subst hne
          simp [undone, Store.AgreesAt, he, Store.mem_heldEdges_restoreEdge]
        · simp [undone, Store.AgreesAt, he, hne, Store.mem_heldEdges_restoreEdge]
      · have hne (h' : e' ∈ b.store.heldEdges) : e' ≠ e := fun heq => he (heq ▸ h')
        simpa [undone, Store.AgreesAt, he] using hne
    | expense id =>
      by_cases he : e ∈ b.store.heldEdges <;>
        simp [undone, Store.AgreesAt, he, Store.dealsAt, Store.spendingsAt]
  | @addExpense x ha =>
    refine ⟨.addExpense, ?_⟩
    intro p
    cases p with
    | edge e => exact Iff.rfl
    | expense id =>
      have hr : (b.rowsFor x).Coherent := ExpenseRows.coherent_ofExpense _ _ _
      have hd : b.store.dealsAt (b.rowsFor x).deal.id = [] := Store.dealsAt_eq_nil_iff.mpr ha.deal
      have hp := hk.spendingsAt_eq_nil hd
      change b.store.dealsAt (Id.minted b.nextId).toText = [] at hd
      change b.store.spendingsAt (Id.minted b.nextId).toText = [] at hp
      simp only [undone, Store.AgreesAt, Store.dealsAt_withoutExpense,
        Store.spendingsAt_withoutExpense, Store.dealsAt_withExpense,
        Store.spendingsAt_withExpense hr]
      by_cases hid : id = (Id.minted b.nextId).toText
      · simp [hid, hd, hp]
      · have hid' : (b.rowsFor x).deal.id ≠ id := fun he => hid he.symm
        simp [hid, hid']
  | @removeExpense id d x hd hx =>
    have hr := Store.coherent_spendingsAt hd
    have hdeal := hk.dealsAt_of_head? hd
    have hid : d.id = id.toText := (Store.mem_dealsAt_iff.mp (List.mem_of_mem_head? hd)).2
    refine ⟨.removeExpense hr hid (hk.admits_withoutExpense hd), ?_⟩
    intro p
    cases p with
    | edge e => exact Iff.rfl
    | expense id' =>
      simp only [undone, Store.AgreesAt, Store.dealsAt_withExpense,
        Store.spendingsAt_withExpense hr, Store.dealsAt_withoutExpense,
        Store.spendingsAt_withoutExpense, hid]
      by_cases he : id' = id.toText
      · simp [he, hdeal]
      · simp [he, Ne.symm he]
  | step hp => cases hs

theorem Effect.keyed {b b' : Book} {op' : Operation} {out : Output} (hk : b.store.Keyed)
    (h : Effect b op out op' b') : b'.store.Keyed := by
  cases h with
  | addEdge he => exact hk.withEdge he
  | removeEdge => exact hk.withoutEdge _
  | addExpense ha => exact hk.withExpense (ExpenseRows.coherent_ofExpense _ _ _) ha
  | removeExpense => exact hk.withoutExpense _
  | step => exact hk

/-- The rows that a removal keeps are those of one expense, the one under its id. -/
def KeepsExpense : Operation → Prop
  | .removeExpense ⟨id, some rows⟩ => rows.Coherent ∧ rows.deal.id = id.toText
  | _ => True

theorem Effect.keepsExpense {b b' : Book} {op' : Operation} {out : Output}
    (h : Effect b op out op' b') : op'.KeepsExpense := by
  cases h with
  | removeExpense hd =>
    exact ⟨Store.coherent_spendingsAt hd, (Store.mem_dealsAt_iff.mp (List.mem_of_mem_head? hd)).2⟩
  | _ => trivial

/-- A reversal that succeeds was one that the store accepts. -/
theorem Reversal.undoable {b b' : Book} {op' : Operation} (hc : b.store.Complete)
    (hop : op.KeepsExpense) (h : Reversal b op op' b') (hs : op.isScripted = false) :
    op.Undoable b.store ∧ b'.store = op.undone b.store := by
  cases h with
  | addEdge => exact ⟨.addEdge, rfl⟩
  | removeEdge_missed => exact ⟨.removeEdge, rfl⟩
  | removeEdge => exact ⟨.removeEdge, rfl⟩
  | addExpense => exact ⟨.addExpense, rfl⟩
  | removeExpense hins =>
    obtain ⟨ha, rfl⟩ := (hc.insertExpense_eq_ok_iff hop.1).mp hins
    exact ⟨.removeExpense hop.1 hop.2 ha, rfl⟩
  | step => cases hs

theorem Reversal.keyed {b b' : Book} {op' : Operation} (hk : b.store.Keyed)
    (h : Reversal b op op' b') : b'.store.Keyed := by
  cases h with
  | addEdge => exact hk.withoutEdge _
  | removeEdge_missed => exact hk
  | removeEdge => exact hk.restoreEdge _
  | addExpense => exact hk.withoutExpense _
  | removeExpense hins => exact hk.insertExpense hins
  | step => exact hk

/-! ### Places that are changed -/

/-- The place that a performed operation has changed. A removal that found no edge has
changed none. -/
def writes? : Operation → Option Place
  | .removeEdge ⟨_, some false⟩ => none
  | op => op.place?

section Changed
variable {b b' c c' : Book} {op' op'' : Operation} {out : Output}

theorem Undoable.agreesAt_of_writes (h : op.Undoable s) (hp : op.writes? ≠ some p) :
    (op.undone t).AgreesAt t p := by
  cases h with
  | @removeEdge e hit =>
    cases hit with
    | false => exact .refl t p
    | true => exact Undoable.undone_agreesAt (s := s) .removeEdge hp
  | addEdge => exact Undoable.undone_agreesAt (s := s) .addEdge hp
  | addExpense => exact Undoable.undone_agreesAt (s := s) .addExpense hp
  | removeExpense hr hid ha => exact Undoable.undone_agreesAt (.removeExpense hr hid ha) hp

/-- What an undone operation leaves at the place that it had changed does not depend on
the store. -/
theorem Undoable.undone_agreesAt_undone (hs : op.Undoable s) (ht : op.Undoable t) (hks : s.Keyed)
    (hkt : t.Keyed) (hp : op.writes? = some p) : (op.undone s).AgreesAt (op.undone t) p := by
  cases hs with
  | addEdge =>
    cases hp
    simp [undone, Store.AgreesAt]
  | @removeEdge e hit =>
    cases hit <;> cases hp
    simp [undone, Store.AgreesAt, Store.mem_heldEdges_restoreEdge]
  | addExpense =>
    cases hp
    simp [undone, Store.AgreesAt, Store.dealsAt_withoutExpense, Store.spendingsAt_withoutExpense]
  | removeExpense hr hid ha =>
    cases hp
    cases ht with
    | removeExpense _ _ ha' =>
      have hds := Store.dealsAt_eq_nil_iff.mpr ha.deal
      have hdt := Store.dealsAt_eq_nil_iff.mpr ha'.deal
      have hps := hks.spendingsAt_eq_nil hds
      have hpt := hkt.spendingsAt_eq_nil hdt
      rw [hid] at hds hdt hps hpt
      simp [undone, Store.AgreesAt, Store.dealsAt_withExpense, Store.spendingsAt_withExpense hr,
        hds, hdt, hps, hpt]

theorem Effect.agreesAt_of_writes (h : Effect b op out op' b') (hk : b.store.Keyed)
    (hp : op'.writes? ≠ some p) : b'.store.AgreesAt b.store p := by
  cases hs : op.isScripted with
  | true =>
    cases h with
    | step => exact .refl _ p
    | _ => cases hs
  | false =>
    obtain ⟨hu, hback⟩ := h.undoes hk hs
    exact (hu.agreesAt_of_writes hp).symm.trans (hback p)

theorem Reversal.agreesAt_of_writes (h : Reversal b op op' b') (hc : b.store.Complete)
    (hop : op.KeepsExpense) (hp : op.writes? ≠ some p) : b'.store.AgreesAt b.store p := by
  cases hs : op.isScripted with
  | true =>
    cases h with
    | step => exact .refl _ p
    | _ => cases hs
  | false =>
    obtain ⟨hu, hstore⟩ := h.undoable hc hop hs
    rw [hstore]
    exact hu.agreesAt_of_writes hp

/-- A reversal restores what the performance has found. -/
theorem Effect.restores (h : Effect b op out op' b') (hb : b.store.Keyed) (hc : c.store.Keyed)
    (hp : op'.writes? = some p) (hr : Reversal c op' op'' c') : c'.store.AgreesAt b.store p := by
  cases hs : op.isScripted with
  | true =>
    cases h with
    | step => cases hp
    | _ => cases hs
  | false =>
    obtain ⟨hu, hback⟩ := h.undoes hb hs
    obtain ⟨huc, hstore⟩ :=
      hr.undoable hc.toComplete h.keepsExpense (h.isScripted_eq.trans hs)
    rw [hstore]
    exact (huc.undone_agreesAt_undone hu hc (h.keyed hb) hp).trans (hback p)

end Changed
end Operation
end FriendLedger
