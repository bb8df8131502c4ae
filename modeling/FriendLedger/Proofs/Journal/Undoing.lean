import FriendLedger.Proofs.Journal.Advance
import FriendLedger.Proofs.Operation.Undo

/-! Undoing a whole journal, newest operation first. A journal is ready when the
store accepts each of its reversals in turn. It stays ready under every change of
the store that spares what the journal has written, and whatever a rollback does at
a place depends on the rows of this place alone. -/

namespace FriendLedger

set_option autoImplicit false

namespace Operation

def undoneAll : List Operation → Store → Store
  | [], s => s
  | op :: ops, s => undoneAll ops (op.undone s)

/-- The store accepts the reversals of the operations, one after another. -/
def Ready : List Operation → Store → Prop
  | [], _ => True
  | op :: ops, s => op.Undoable s ∧ Ready ops (op.undone s)

/-- A change of the store from `s` to `t` that spares the operations: it writes at
none of their places, and it stores no spending under the id of one that they
have deleted. -/
structure Spares (ops : List Operation) (s t : Store) : Prop where
  agrees : ∀ op ∈ ops, ∀ p, op.place? = some p → s.AgreesAt t p
  free : ∀ op ∈ ops, ∀ q ∈ t.heldSpendings, q.id ∈ op.takenIds → q ∈ s.heldSpendings

variable {ops : List Operation} {op : Operation} {s t u : Store} {p : Place}

theorem spares_of_agrees (h : s.Agrees t) : Spares ops s t where
  agrees _ _ p _ := h p
  free _ _ _ hq _ := h.mem_heldSpendings_iff.mpr hq

theorem Undoable.of_spares (h : op.Undoable s) (hs : Spares (op :: ops) s t) : op.Undoable t := by
  cases h with
  | addEdge => exact .addEdge
  | removeEdge => exact .removeEdge
  | addExpense => exact .addExpense
  | @removeExpense id rows hr hid ha =>
    have hat := hs.agrees _ List.mem_cons_self _ rfl
    have hfree := hs.free _ List.mem_cons_self
    refine .removeExpense hr hid ⟨?_, ha.nodup, ?_⟩
    · have hd := Store.dealsAt_eq_nil_iff.mpr ha.deal
      rw [hid, hat.1, ← hid] at hd
      exact Store.dealsAt_eq_nil_iff.mp hd
    · intro r hr q hq hqr
      have hq' := hfree q hq (List.mem_map.mpr ⟨r, hr, hqr.symm⟩)
      exact ha.spendings r hr q hq' hqr

theorem Spares.undone (hs : Spares (op :: ops) s t) (h : op.Undoable s) :
    Spares ops (op.undone s) (op.undone t) where
  agrees o ho p hp := h.undone_congr (hs.agrees o (List.mem_cons_of_mem op ho) p hp)
  free o ho q hq hid := by
    have hfree (hq : q ∈ t.heldSpendings) : q ∈ s.heldSpendings :=
      hs.free o (List.mem_cons_of_mem op ho) q hq hid
    cases h with
    | addEdge => exact hfree hq
    | @removeEdge e hit =>
      cases hit with
      | false => exact hfree hq
      | true =>
        simp only [Operation.undone, Store.heldSpendings_restoreEdge] at hq ⊢
        exact hfree hq
    | addExpense =>
      obtain ⟨hq, hne⟩ := List.mem_filter.mp hq
      exact List.mem_filter.mpr ⟨hfree hq, hne⟩
    | removeExpense =>
      rcases List.mem_append.mp hq with hq | hq
      · exact List.mem_append_left _ (hfree hq)
      · exact List.mem_append_right _ hq

theorem Ready.of_spares (h : Ready ops s) (hs : Spares ops s t) : Ready ops t := by
  induction ops generalizing s t with
  | nil => trivial
  | cons op ops ih => exact ⟨h.1.of_spares hs, ih h.2 (hs.undone h.1)⟩

theorem Ready.keyed (h : Ready ops s) (hk : s.Keyed) : (undoneAll ops s).Keyed := by
  induction ops generalizing s with
  | nil => exact hk
  | cons op ops ih => exact ih h.2 (h.1.keyed_undone hk)

theorem Ready.undoneAll_congr (h : Ready ops u) (hst : s.AgreesAt t p) :
    (undoneAll ops s).AgreesAt (undoneAll ops t) p := by
  induction ops generalizing s t u with
  | nil => exact hst
  | cons op ops ih => exact ih h.2 (h.1.undone_congr hst)

theorem Ready.undoneAll_agreesAt (h : Ready ops u) (hp : ∀ op ∈ ops, op.place? ≠ some p) :
    (undoneAll ops s).AgreesAt s p := by
  induction ops generalizing s u with
  | nil => exact .refl s p
  | cons op ops ih =>
    have hrest := ih (s := op.undone s) h.2 fun o ho => hp o (List.mem_cons_of_mem op ho)
    exact hrest.trans (h.1.undone_agreesAt (hp op List.mem_cons_self))

theorem Ready.reverseAll_eq {b : Book} (hk : b.store.Keyed) (h : Ready ops b.store) :
    Journal.reverseAll ops b = (.ok (), { b with store := undoneAll ops b.store }) := by
  induction ops generalizing b with
  | nil => rfl
  | cons op ops ih =>
    obtain ⟨op', hrev⟩ := h.1.reverse_eq hk.toComplete
    simp only [Journal.reverseAll, hrev]
    exact ih (h.1.keyed_undone hk) h.2

end Operation

namespace Journal

/-- The journal has recorded an operation that has written at the place. -/
def Touches (j : Journal) (p : Place) : Prop := ∃ op ∈ j.performed, op.place? = some p

/-- The store to which a rollback leads back. -/
def undone (j : Journal) (s : Store) : Store := Operation.undoneAll j.performed s

def Ready (j : Journal) (s : Store) : Prop := Operation.Ready j.performed s

variable {j j' : Journal} {b b' : Book} {s t : Store} {p : Place}

theorem not_touches_iff : ¬ j.Touches p ↔ ∀ op ∈ j.performed, op.place? ≠ some p := by
  simp [Touches]

/-- A call through a ready journal leaves it ready, and a rollback after the call
leads to the same rows as one before it. -/
theorem Advance.ready {P : Operation → Prop} (hP : ∀ op, P op → op.isScripted = false)
    (h : Advance P j b j' b') (hk : b.store.Keyed) (hr : j.Ready b.store) :
    b'.store.Keyed ∧ j'.Ready b'.store ∧ (j'.undone b'.store).Agrees (j.undone b.store) := by
  cases h with
  | refused hs =>
    rw [hs]
    exact ⟨hk, hr, fun p => .refl _ p⟩
  | performed hp hop =>
    have heff := Operation.effect_of_perform hk.toComplete hop
    obtain ⟨hu, hback⟩ := heff.undoes hk (hP _ hp)
    have hsame : b.store.Agrees _ := fun p => (hback p).symm
    refine ⟨heff.keyed hk, ⟨hu, Operation.Ready.of_spares hr (Operation.spares_of_agrees hsame)⟩, ?_⟩
    intro p
    exact Operation.Ready.undoneAll_congr hr (hback p)

theorem Advance.touches {P : Operation → Prop} (h : Advance P j b j' b') (hp : j.Touches p) :
    j'.Touches p := by
  cases h with
  | refused => exact hp
  | performed =>
    obtain ⟨op, hop, hplace⟩ := hp
    exact ⟨op, List.mem_cons_of_mem _ hop, hplace⟩

end Journal
end FriendLedger
