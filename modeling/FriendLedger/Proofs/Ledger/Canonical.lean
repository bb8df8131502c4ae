import FriendLedger.Proofs.Session.Invariant

/-! The form in which the engine stores expenses. Ids stand in the one way in which ids are
written, and currencies in their normal form. New rows come in this form; rows that a
removal has kept had it when they were deleted, so that they have it when they are put
back. -/

namespace FriendLedger

set_option autoImplicit false

/-- The id is written as ids are, and the currency is left as it is when it is read. -/
structure DealRow.Canonical (d : DealRow) : Prop where
  id : ∃ i : Id, i.toText = d.id
  currency : ∃ c, Currency.ofText? d.currency = some c ∧ c.code = d.currency

def SpendingRow.Canonical (p : SpendingRow) : Prop := ∃ i : Id, i.toText = p.id

namespace ExpenseRows

structure Canonical (rows : ExpenseRows) : Prop where
  deal : rows.deal.Canonical
  spendings : ∀ p ∈ rows.spendings, p.Canonical
  coherent : rows.Coherent

theorem canonical_ofExpense (e : Expense) (id : Id) (shareIds : List Id) :
    (ofExpense e id shareIds).Canonical where
  deal := ⟨⟨id, rfl⟩, e.currency, Currency.ofText?_code e.currency, rfl⟩
  spendings := by
    intro p hp
    simp only [ofExpense] at hp
    rw [← List.map_uncurry_zip_eq_zipWith] at hp
    obtain ⟨⟨share, i⟩, -, rfl⟩ := List.mem_map.mp hp
    exact ⟨i, rfl⟩
  coherent := coherent_ofExpense e id shareIds

/-- Rows in this form are those of an expense. -/
theorem Canonical.encodes {rows : ExpenseRows} (h : rows.Canonical) :
    ∃ (i : Id) (e : Expense), rows.Encodes i e := by
  obtain ⟨⟨i, hi⟩, c, -, hc⟩ := h.deal
  refine ⟨i, ⟨none, rows.deal.timestamp, rows.deal.details, rows.deal.cost, c,
    rows.spendings.map SpendingRow.toShare⟩, ?_, rfl, h.coherent⟩
  rw [hi, hc]

theorem Canonical.decode_ok {rows : ExpenseRows} (h : rows.Canonical) :
    ∃ e, rows.decode = .ok e := by
  obtain ⟨i, e, hencodes⟩ := h.encodes
  exact ⟨_, hencodes.decode_eq⟩

end ExpenseRows

namespace Store

structure Canonical (s : Store) : Prop extends Keyed s where
  canonical_deals : ∀ d ∈ s.heldDeals, d.Canonical
  canonical_spendings : ∀ p ∈ s.heldSpendings, p.Canonical

namespace Canonical
variable {s t : Store} {id : String}

/-- Edges have no part in it. -/
theorem of_keyed (h : s.Canonical) (ht : t.Keyed) (hdeals : t.heldDeals = s.heldDeals)
    (hspendings : t.heldSpendings = s.heldSpendings) : t.Canonical := by
  refine ⟨ht, ?_, ?_⟩
  · rw [hdeals]
    exact h.canonical_deals
  · rw [hspendings]
    exact h.canonical_spendings

theorem rowsAt (h : s.Canonical) {d : DealRow} (hd : (s.dealsAt id).head? = some d) :
    (ExpenseRows.mk d (s.spendingsAt id)).Canonical where
  deal := h.canonical_deals d (List.mem_filter.mp (List.mem_of_mem_head? hd)).1
  spendings := fun p hp => h.canonical_spendings p (List.mem_filter.mp hp).1
  coherent := coherent_spendingsAt hd

theorem withExpense (h : s.Canonical) {rows : ExpenseRows} (hrows : rows.Canonical)
    (hadmits : s.Admits rows) : (s.withExpense rows).Canonical where
  toKeyed := h.toKeyed.withExpense hrows.coherent hadmits
  canonical_deals := by
    intro d hd
    rcases List.mem_append.mp hd with hd | hd
    · exact h.canonical_deals d hd
    · rw [List.mem_singleton.mp hd]
      exact hrows.deal
  canonical_spendings := by
    intro p hp
    rcases List.mem_append.mp hp with hp | hp
    · exact h.canonical_spendings p hp
    · exact hrows.spendings p hp

theorem withoutExpense (h : s.Canonical) (id : String) : (s.withoutExpense id).Canonical where
  toKeyed := h.toKeyed.withoutExpense id
  canonical_deals := fun d hd => h.canonical_deals d (List.mem_filter.mp hd).1
  canonical_spendings := fun p hp => h.canonical_spendings p (List.mem_filter.mp hp).1

end Canonical

theorem canonical_fresh : fresh.Canonical where
  toKeyed := keyed_fresh
  canonical_deals := fun _ hd => by cases hd
  canonical_spendings := fun _ hp => by cases hp

end Store

namespace Operation

/-- Rows that are kept for a reversal have the form. -/
def KeepsCanonical : Operation → Prop
  | .removeExpense ⟨_, some rows⟩ => rows.Canonical
  | _ => True

variable {b b' : Book} {op op' : Operation}

theorem IsUnused.keepsCanonical (h : op.IsUnused) : op.KeepsCanonical := by
  cases op with
  | removeExpense op =>
    obtain ⟨id, taken⟩ := op
    cases taken with
    | none => trivial
    | some rows =>
      rcases h with h | h
      · cases h
      · cases h
  | _ => trivial

theorem Effect.canonical {out : Output} (hs : b.store.Canonical) (h : Effect b op out op' b') :
    b'.store.Canonical ∧ op'.KeepsCanonical := by
  have hk := h.keyed hs.toKeyed
  cases h with
  | addEdge => exact ⟨hs.of_keyed hk rfl rfl, trivial⟩
  | removeEdge => exact ⟨hs.of_keyed hk rfl rfl, trivial⟩
  | addExpense hadmits =>
    exact ⟨hs.withExpense (ExpenseRows.canonical_ofExpense _ _ _) hadmits, trivial⟩
  | removeExpense hd => exact ⟨hs.withoutExpense _, hs.rowsAt hd⟩
  | step => exact ⟨hs.of_keyed hk rfl rfl, trivial⟩

theorem Reversal.canonical (hs : b.store.Canonical) (hop : op.KeepsCanonical)
    (h : Reversal b op op' b') : b'.store.Canonical ∧ op'.KeepsCanonical := by
  have hk := h.keyed hs.toKeyed
  cases h with
  | addEdge => exact ⟨hs.of_keyed hk rfl rfl, trivial⟩
  | removeEdge_missed => exact ⟨hs, trivial⟩
  | removeEdge => exact ⟨hs.of_keyed hk (by simp) (by simp), trivial⟩
  | addExpense => exact ⟨hs.withoutExpense _, trivial⟩
  | @removeExpense id rows s hins =>
    obtain ⟨hadmits, rfl⟩ := (hs.insertExpense_eq_ok_iff hop.coherent).mp hins
    exact ⟨hs.withExpense hop hadmits, trivial⟩
  | step => exact ⟨hs.of_keyed hk rfl rfl, trivial⟩

end Operation

theorem Store.invariant_canonical : Session.Invariant Store.Canonical Operation.KeepsCanonical where
  complete := fun h => h.toComplete
  unused := fun h => h.keepsCanonical
  effect := fun hs _ h => h.canonical hs
  reversal := fun hs hop h => h.canonical hs hop

end FriendLedger
