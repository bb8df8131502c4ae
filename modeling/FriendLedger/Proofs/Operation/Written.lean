import FriendLedger.Ledger.Account
import FriendLedger.Proofs.Journal.Advance
import FriendLedger.Proofs.Ledger.Reading
import FriendLedger.Proofs.Operation.Keys

/-! The rows under an id are those that were written when it was handed out. `W` tells which
rows were written under which id; the store and the removals that are still to be undone
hold nothing else. What is deleted and put back is therefore what it was, and an expense
that was read once reads in the same way as long as it is there. -/

namespace FriendLedger

set_option autoImplicit false

variable {W W' : Id → ExpenseRows → Prop} {id : Id} {rows : ExpenseRows}

/-- Under an id there is one expense. -/
structure IsLog (W : Id → ExpenseRows → Prop) : Prop where
  encodes : ∀ {id rows}, W id rows → ∃ e, rows.Encodes id e
  once : ∀ {id rows rows'}, W id rows → W id rows' → rows = rows'

theorem IsLog.coherent (hW : IsLog W) (h : W id rows) : rows.Coherent := by
  obtain ⟨e, hencodes⟩ := hW.encodes h
  exact hencodes.coherent

theorem IsLog.deal_id (hW : IsLog W) (h : W id rows) : rows.deal.id = id.toText := by
  obtain ⟨e, hencodes⟩ := hW.encodes h
  rw [hencodes.deal]

namespace Store
variable {s : Store}

/-- These rows are stored under the id, and no others. -/
def HasRows (s : Store) (id : Id) (rows : ExpenseRows) : Prop :=
  s.dealsAt id.toText = [rows.deal] ∧ s.spendingsAt id.toText = rows.spendings

def Lacks (s : Store) (id : Id) : Prop :=
  s.dealsAt id.toText = [] ∧ s.spendingsAt id.toText = []

theorem HasRows.not_lacks (h : s.HasRows id rows) : ¬ s.Lacks id := by
  intro hlacks
  cases h.1.symm.trans hlacks.1

theorem Lacks.of_rows {t : Store} (h : s.Lacks id) (hdeals : t.heldDeals = s.heldDeals)
    (hspendings : t.heldSpendings = s.heldSpendings) : t.Lacks id := by
  unfold Lacks dealsAt spendingsAt
  rw [hdeals, hspendings]
  exact h

theorem lacks_withoutExpense (id : Id) : (s.withoutExpense id.toText).Lacks id :=
  ⟨by rw [dealsAt_withoutExpense, if_pos rfl], by rw [spendingsAt_withoutExpense, if_pos rfl]⟩

theorem Lacks.withoutExpense (h : s.Lacks id) (other : String) :
    (s.withoutExpense other).Lacks id := by
  unfold Lacks
  rw [dealsAt_withoutExpense, spendingsAt_withoutExpense]
  split
  · exact ⟨rfl, rfl⟩
  · exact h

theorem Lacks.withExpense (h : s.Lacks id) (hrows : rows.Coherent) (hne : rows.deal.id ≠ id.toText) :
    (s.withExpense rows).Lacks id := by
  constructor
  · rw [dealsAt_withExpense, if_neg hne, List.append_nil, h.1]
  · rw [spendingsAt_withExpense hrows, if_neg hne, List.append_nil, h.2]

/-- All that is stored was written so. -/
def HoldsOnly (s : Store) (W : Id → ExpenseRows → Prop) : Prop :=
  ∀ d ∈ s.heldDeals, ∃ id, W id ⟨d, s.spendingsAt d.id⟩

theorem HoldsOnly.mono (h : s.HoldsOnly W) (hle : ∀ id rows, W id rows → W' id rows) :
    s.HoldsOnly W' := by
  intro d hd
  obtain ⟨id, hid⟩ := h d hd
  exact ⟨id, hle id _ hid⟩

theorem HoldsOnly.of_rows {t : Store} (h : s.HoldsOnly W) (hdeals : t.heldDeals = s.heldDeals)
    (hspendings : t.heldSpendings = s.heldSpendings) : t.HoldsOnly W := by
  intro d hd
  rw [hdeals] at hd
  rw [spendingsAt, hspendings]
  exact h d hd

/-- The rows that are found under an id were written under it. -/
theorem HoldsOnly.written (h : s.HoldsOnly W) (hW : IsLog W) {d : DealRow}
    (hd : (s.dealsAt id.toText).head? = some d) : W id ⟨d, s.spendingsAt id.toText⟩ := by
  obtain ⟨hmem, hid⟩ := mem_dealsAt_iff.mp (List.mem_of_mem_head? hd)
  obtain ⟨id', hwritten⟩ := h d hmem
  have htext : d.id = id'.toText := hW.deal_id hwritten
  rw [← Id.toText_inj (htext.symm.trans hid), ← htext]
  exact hwritten

theorem HoldsOnly.withExpense (h : s.HoldsOnly W) (hk : s.Keyed) (hW : IsLog W)
    (hrows : W id rows) (hadmits : s.Admits rows) : (s.withExpense rows).HoldsOnly W := by
  intro d hd
  rw [spendingsAt_withExpense (hW.coherent hrows)]
  rcases List.mem_append.mp hd with hd | hd
  · rw [if_neg (hadmits.deal d hd).symm, List.append_nil]
    exact h d hd
  · have hnone : s.dealsAt rows.deal.id = [] := dealsAt_eq_nil_iff.mpr hadmits.deal
    rw [List.mem_singleton.mp hd, if_pos rfl, hk.spendingsAt_eq_nil hnone, List.nil_append]
    exact ⟨id, hrows⟩

theorem HoldsOnly.withoutExpense (h : s.HoldsOnly W) (id : String) :
    (s.withoutExpense id).HoldsOnly W := by
  intro d hd
  obtain ⟨hd, hne⟩ := List.mem_filter.mp hd
  rw [spendingsAt_withoutExpense, if_neg (of_decide_eq_true hne)]
  exact h d hd

end Store

/-- A removal that can be undone keeps what was written under its id. -/
def Operation.KeepsOnly (W : Id → ExpenseRows → Prop) : Operation → Prop
  | .removeExpense ⟨id, some rows⟩ => W id rows
  | _ => True

theorem Operation.KeepsOnly.mono {op : Operation} (h : op.KeepsOnly W)
    (hle : ∀ id rows, W id rows → W' id rows) : op.KeepsOnly W' := by
  cases op with
  | removeExpense op =>
    obtain ⟨id, taken⟩ := op
    cases taken with
    | none => trivial
    | some rows => exact hle id rows h
  | _ => trivial

namespace Book

/-- The book holds what was written, under ids that were handed out. -/
structure Faithful (b : Book) (W : Id → ExpenseRows → Prop) : Prop extends IsLog W where
  keyed : b.store.Keyed
  holds : b.store.HoldsOnly W
  minted : ∀ {id rows}, W id rows → ∃ n < b.nextId, id = Id.minted n

namespace Faithful
variable {b b' : Book} {e : Expense} (h : b.Faithful W)
include h

theorem congr (hstore : b'.store = b.store) (hids : b.nextId ≤ b'.nextId) : b'.Faithful W where
  toIsLog := h.toIsLog
  keyed := hstore ▸ h.keyed
  holds := hstore ▸ h.holds
  minted := by
    intro id rows hrows
    obtain ⟨n, hlt, hid⟩ := h.minted hrows
    exact ⟨n, Nat.lt_of_lt_of_le hlt hids, hid⟩

/-- An id that was not handed out yet has nothing written under it. -/
theorem ne_minted (hb : ¬ (b.useIds (e.shares.length + 1)).Exhausted) (hrows : W id rows) :
    id ≠ Id.minted b.nextId := by
  rintro rfl
  obtain ⟨n, hlt, hid⟩ := h.minted hrows
  have hcap : b.nextId + (e.shares.length + 1) ≤ Id.capacity := Nat.le_of_not_lt hb
  have hsame := Id.minted_inj (by omega) (by omega) hid
  omega

/-- New rows are written under a new id. -/
theorem withRows (hb : ¬ (b.useIds (e.shares.length + 1)).Exhausted)
    (hadmits : b.store.Admits (b.rowsFor e)) :
    ({ b.useIds (e.shares.length + 1) with store := b.store.withExpense (b.rowsFor e) } : Book).Faithful
      fun id rows => W id rows ∨ id = Id.minted b.nextId ∧ rows = b.rowsFor e := by
  have hlog : IsLog fun id rows => W id rows ∨ id = Id.minted b.nextId ∧ rows = b.rowsFor e := by
    constructor
    · rintro id rows (hrows | ⟨rfl, rfl⟩)
      · exact h.encodes hrows
      · exact ⟨e, encodes_rowsFor⟩
    · rintro id rows rows' (hrows | ⟨rfl, rfl⟩) (hrows' | ⟨hid, rfl⟩)
      · exact h.once hrows hrows'
      · exact absurd hid (h.ne_minted hb hrows)
      · exact absurd rfl (h.ne_minted hb hrows')
      · rfl
  refine ⟨hlog, h.keyed.withExpense encodes_rowsFor.coherent hadmits, ?_, ?_⟩
  · apply Store.HoldsOnly.withExpense (h.holds.mono ?_) h.keyed hlog (.inr ⟨rfl, rfl⟩) hadmits
    intro id rows hrows
    exact .inl hrows
  · rintro id rows (hrows | ⟨rfl, -⟩)
    · obtain ⟨n, hlt, hid⟩ := h.minted hrows
      exact ⟨n, Nat.lt_of_lt_of_le hlt (Nat.le_add_right _ _), hid⟩
    · exact ⟨b.nextId, Nat.lt_add_of_pos_right (Nat.succ_pos _), rfl⟩

theorem lacks_withRows (hb : ¬ (b.useIds (e.shares.length + 1)).Exhausted) (hrows : W id rows)
    (hlacks : b.store.Lacks id) : (b.store.withExpense (b.rowsFor e)).Lacks id := by
  apply hlacks.withExpense encodes_rowsFor.coherent
  rw [encodes_rowsFor.deal]
  exact fun htext => h.ne_minted hb hrows (Id.toText_inj htext).symm

theorem withoutExpense (id : String) :
    ({ b with store := b.store.withoutExpense id } : Book).Faithful W :=
  ⟨h.toIsLog, h.keyed.withoutExpense id, h.holds.withoutExpense id, h.minted⟩

/-- Undoing puts back what was written. -/
theorem reversal {op op' : Operation} (hop : op.KeepsOnly W) (hr : Operation.Reversal b op op' b') :
    b'.Faithful W := by
  have hk := hr.keyed h.keyed
  cases hr with
  | addEdge => exact ⟨h.toIsLog, hk, h.holds.of_rows rfl rfl, h.minted⟩
  | removeEdge_missed => exact h
  | removeEdge => exact ⟨h.toIsLog, hk, h.holds.of_rows (by simp) (by simp), h.minted⟩
  | addExpense => exact h.withoutExpense _
  | @removeExpense id rows s hins =>
    obtain ⟨hadmits, rfl⟩ := (h.keyed.insertExpense_eq_ok_iff (h.coherent hop)).mp hins
    exact ⟨h.toIsLog, hk, h.holds.withExpense h.keyed h.toIsLog hop hadmits, h.minted⟩
  | step => exact ⟨h.toIsLog, hk, h.holds, h.minted⟩

/-- Under an id there is what was written, or nothing. -/
theorem lacks_or_hasRows (id : Id) : b.store.Lacks id ∨
    ∃ rows e, W id rows ∧ rows.Encodes id e ∧ b.store.HasRows id rows := by
  cases hd : (b.store.dealsAt id.toText).head? with
  | none =>
    have hnone := List.head?_eq_none_iff.mp hd
    exact .inl ⟨hnone, h.keyed.spendingsAt_eq_nil hnone⟩
  | some d =>
    have hwritten := h.holds.written h.toIsLog hd
    obtain ⟨e, hencodes⟩ := h.encodes hwritten
    exact .inr ⟨_, e, hwritten, hencodes, h.keyed.dealsAt_of_head? hd, rfl⟩

theorem find?_cases (id : Id) : Ledger.find? b.store id = .ok none ∨
    ∃ rows e, W id rows ∧ rows.decode = .ok e ∧ Ledger.find? b.store id = .ok (some e) := by
  rw [Ledger.find?_eq h.keyed.toComplete]
  rcases h.lacks_or_hasRows id with ⟨hnone, -⟩ | ⟨rows, e, hwritten, hencodes, hdeal, hspendings⟩
  · rw [hnone]
    exact .inl rfl
  · refine .inr ⟨rows, _, hwritten, hencodes.decode_eq, ?_⟩
    rw [hdeal, hspendings]
    dsimp only [List.head?_cons]
    rw [hencodes.decode_eq]
    rfl

/-- Who may remove an expense is told by what was written. -/
theorem involves_of_get {actor : String} (hget : Ledger.get b.store actor id = .ok e) :
    ∃ rows, W id rows ∧ rows.decode = .ok e ∧ e.involves actor = true := by
  obtain ⟨found, hfound, hget⟩ := bind_eq_ok_iff.mp hget
  rcases h.find?_cases id with hnone | ⟨rows, e', hwritten, hdecode, hsome⟩
  · cases hfound.symm.trans hnone
    cases hget
  · cases hfound.symm.trans hsome
    dsimp only at hget
    split at hget
    · rename_i hinvolves
      cases hget
      exact ⟨rows, hwritten, hdecode, hinvolves⟩
    · cases hget

/-- Taking an expense out of the store answers what was written, or finds nothing. -/
theorem take_cases (id : Id) :
    (b.store.Lacks id ∧
      ∀ j, Ledger.take id j b = (.error (.expenseNotFound id.toText), j, b)) ∨
    ∃ rows e, W id rows ∧ rows.decode = .ok e ∧ b.store.HasRows id rows ∧
      ∀ j, Ledger.take id j b = (.ok e, j.record (.removeExpense ⟨id, some rows⟩),
        { b with store := b.store.withoutExpense id.toText }) := by
  rcases h.lacks_or_hasRows id with hlacks | ⟨rows, e, hwritten, hencodes, hhas⟩
  · refine .inl ⟨hlacks, ?_⟩
    have htake : RemoveExpense.take b.store id = .error (.expenseNotFound id.toText) := by
      unfold RemoveExpense.take
      rw [h.keyed.findExpense_eq, hlacks.1]
      rfl
    intro j
    simp only [Ledger.take, Journal.perform, Reversible.perform, RemoveExpense.perform,
      RemoveExpense.new, htake]
  · refine .inr ⟨rows, _, hwritten, hencodes.decode_eq, hhas, ?_⟩
    obtain ⟨hdeal, hspendings⟩ := hhas
    have htake : RemoveExpense.take b.store id =
        .ok (rows, e.listedAs id, b.store.withoutExpense id.toText) := by
      apply (Operation.take_eq_ok_iff h.keyed.toComplete).mpr
      exact ⟨rows.deal, by rw [hdeal]; rfl, by rw [hspendings], hencodes.decode_eq, rfl⟩
    intro j
    simp only [Ledger.take, Journal.perform, Reversible.perform, RemoveExpense.perform,
      RemoveExpense.new, htake]

/-- Of what was written, only undoing its removal brings anything back. -/
theorem lacks_reversal {op op' : Operation} (hop : op.KeepsOnly W)
    (hr : Operation.Reversal b op op' b') (hlacks : b.store.Lacks id) : b'.store.Lacks id ∨
      ∃ rows, op = .removeExpense ⟨id, some rows⟩ ∧ W id rows ∧ b'.store.HasRows id rows := by
  cases hr with
  | addEdge => exact .inl hlacks
  | removeEdge_missed => exact .inl hlacks
  | removeEdge => exact .inl (hlacks.of_rows (by simp) (by simp))
  | addExpense => exact .inl (hlacks.withoutExpense _)
  | step => exact .inl hlacks
  | @removeExpense own rows s hins =>
    have hown : W own rows := hop
    have hcoherent := h.coherent hown
    obtain ⟨-, rfl⟩ := (h.keyed.insertExpense_eq_ok_iff hcoherent).mp hins
    by_cases hsame : id = own
    · subst hsame
      refine .inr ⟨rows, rfl, hown, ?_⟩
      have hid := h.deal_id hown
      constructor
      · rw [Store.dealsAt_withExpense, if_pos hid, hlacks.1, List.nil_append]
      · rw [Store.spendingsAt_withExpense hcoherent, if_pos hid, hlacks.2, List.nil_append]
    · refine .inl (hlacks.withExpense hcoherent ?_)
      rw [h.deal_id hown]
      exact fun htext => hsame (Id.toText_inj htext).symm

end Faithful
end Book

/-- An addition is refused, or it writes its rows under the next id. -/
theorem Ledger.add_cases {b : Book} (hc : b.store.Complete) (actor : String) (e : Expense) :
    (∃ stop n, ∀ j, add actor e j b = (.error stop, j, b.useIds n)) ∨
      b.store.Admits (b.rowsFor e) ∧ ∀ j, add actor e j b = (.ok (Id.minted b.nextId),
        j.record (.addExpense ⟨e, some (Id.minted b.nextId)⟩),
        { b.useIds (e.shares.length + 1) with store := b.store.withExpense (b.rowsFor e) }) := by
  cases hinvolves : e.involves actor with
  | false =>
    refine .inl ⟨.failure (.notYourExpense (actor ++ " holds no share of the new expense")), 0, ?_⟩
    intro j
    simp [add, hinvolves, Book.useIds]
  | true =>
    cases hsum : e.isBalanced? with
    | none =>
      refine .inl ⟨.overflow, 0, ?_⟩
      intro j
      simp [add, hinvolves, hsum, Book.useIds]
    | some balanced =>
      have hw : Operation.perform (.addExpense (.new e)) b =
          Operation.lift .addExpense .added (Reversible.perform (AddExpense.new e) b) := rfl
      cases hperf : Operation.perform (.addExpense (.new e)) b with
      | mk answer rest =>
        obtain ⟨op', b'⟩ := rest
        cases answer with
        | error f =>
          have hj := Journal.perform_of_error hw hperf
          obtain ⟨-, rfl⟩ := Operation.perform_error hperf
          refine .inl ⟨.failure f, e.shares.length + 1, ?_⟩
          intro j
          simp only [add, hinvolves, if_true, hsum, hj]
          rfl
        | ok out =>
          obtain ⟨id, hout, hj⟩ := Journal.perform_of_ok hw hperf
          cases Operation.effect_of_perform hc hperf with
          | addExpense hadmits =>
            cases hout
            refine .inr ⟨hadmits, ?_⟩
            intro j
            simp only [add, hinvolves, if_true, hsum, hj]
            rfl

end FriendLedger
