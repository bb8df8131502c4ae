import FriendLedger.Proofs.Ledger.Participation
import FriendLedger.Proofs.Session.Invariant

/-! Expenses that cannot be read. Their rows can come from outside only, since every currency
that is stored is a currency. A new expense never takes an id that is stored, and a removal
reads what it deletes; so no operation writes where such an expense stands, and none that
could be undone has. -/

namespace FriendLedger

set_option autoImplicit false

variable {s t : Store} {d : DealRow} {b b' : Book} {op op' : Operation}

namespace Operation

theorem Effect.writes?_ne_unreadable {out : Output} (h : Effect b op out op' b')
    (hk : b.store.Keyed) (hd : d ∈ b.store.heldDeals) (hblank : d.Unreadable) :
    op'.writes? ≠ some (.expense d.id) := by
  intro hw
  cases h with
  | addEdge => cases hw
  | @removeEdge e => cases hhit : decide (e ∈ b.store.heldEdges) <;> rw [hhit] at hw <;> cases hw
  | addExpense hadmits =>
    have hid : (Id.minted b.nextId).toText = d.id := Place.expense.inj (Option.some.inj hw)
    exact hadmits.deal d hd hid.symm
  | @removeExpense id d' x hfound hread =>
    have hid : id.toText = d.id := Place.expense.inj (Option.some.inj hw)
    rw [hid, hk.dealsAt_eq hd] at hfound
    cases hfound
    -- Only a deal whose currency can be read is deleted.
    obtain ⟨-, c, -, hc, -⟩ := DealRow.decode_eq_ok hread
    rw [DealRow.unreadable_iff.mp hblank] at hc
    cases hc
  | step => cases hw

theorem writes?_of_scripted (h : op.isScripted = true) : op.writes? = none := by
  cases op with
  | step => rfl
  | _ => cases h

/-- The operation does not touch the expense, now or when it is undone. -/
structure LeavesAlone (op : Operation) (d : DealRow) : Prop where
  keeps : op.KeepsExpense
  writes : op.isPerformed = true → op.writes? ≠ some (.expense d.id)

theorem IsUnused.leavesAlone (h : op.IsUnused) (d : DealRow) : op.LeavesAlone d := by
  rcases h with hs | hnew
  · constructor
    · cases op with
      | step => trivial
      | _ => cases hs
    · intro _ hw
      rw [writes?_of_scripted hs] at hw
      cases hw
  · refine ⟨(keeps_of_not_performed hnew).1, fun hp => ?_⟩
    rw [hnew] at hp
    cases hp

theorem Reversal.leavesAlone (h : Reversal b op op' b') (d : DealRow) : op'.LeavesAlone d := by
  apply IsUnused.leavesAlone
  cases hs : op.isScripted with
  | true => exact .inl (h.isScripted_eq.trans hs)
  | false => exact .inr (h.isPerformed_eq hs)

end Operation

/-- The expense of `s` stands in `t` as it did, and the same tables are there. -/
structure Store.Preserves (t s : Store) (d : DealRow) : Prop where
  keyed : t.filled.Keyed
  tables : s.SameTables t
  agrees : t.AgreesAt s (.expense d.id)

theorem Store.Preserves.mem_heldDeals (h : t.Preserves s d) (hd : d ∈ s.heldDeals) :
    d ∈ t.heldDeals := by
  have hmem : d ∈ s.dealsAt d.id := mem_dealsAt_iff.mpr ⟨hd, rfl⟩
  rw [← h.agrees.1] at hmem
  exact (mem_dealsAt_iff.mp hmem).1

namespace Session

theorem stable_preserves (hd : d ∈ s.heldDeals) (hblank : d.Unreadable) :
    Stable (·.Preserves s d) (·.LeavesAlone d) where
  unused h := h.leavesAlone d
  perform h _ hperf := by
    have heff := Operation.effect_filled hperf
    have hsame := (Operation.perform_filled hperf).2
    have hw := heff.writes?_ne_unreadable h.keyed (h.mem_heldDeals hd) hblank
    have hagrees := heff.agreesAt_of_writes h.keyed hw
    exact ⟨⟨heff.keyed h.keyed, h.tables.trans hsame, hagrees.trans h.agrees⟩,
      heff.keepsExpense, fun _ => hw⟩
  reverse h hop hrev := by
    have hreversal := Operation.reversal_filled hrev
    have hsame := (Operation.reverse_filled hrev).2
    have hagrees := hreversal.agreesAt_of_writes (Store.complete_filled _) hop.keeps
      (hop.writes hreversal.isPerformed_of)
    exact ⟨⟨hreversal.keyed h.keyed, h.tables.trans hsame, hagrees.trans h.agrees⟩,
      hreversal.leavesAlone d⟩

end Session

namespace Ledger

/-- Whoever asks for an expense that cannot be read is told so, whether or not there is a
table of edges. -/
theorem get_of_unreadable (hk : t.filled.Keyed) (hd : d ∈ t.heldDeals)
    (hp : t.spendings.isSome = true) (hblank : d.Unreadable) {id : Id} (hid : id.toText = d.id)
    (actor : String) : get t actor id =
      .error (.corruptRow ("invalid stored currency " ++ Text.quoted d.currency)) := by
  have hdeals : t.deals.isSome = true := by
    cases hnone : t.deals with
    | some deals => rfl
    | none =>
      rw [Store.heldDeals, hnone] at hd
      cases hd
  have hfind : find? t id = find? t.filled id := by
    rw [find?, find?, Store.findExpense_eq_filled hdeals hp]
  rw [get_congr actor hfind]
  exact ((gated_get hk.toComplete hk.nodup_deals actor id).unreadable hd hid.symm).mpr hblank

end Ledger

namespace Session

/-- Expenses that cannot be read are never touched. Whatever the engine does from a store
on, by calls, operations held by hand and journals in any order, the deal and its spendings
stay, in their order, and whoever reads or removes the expense is told that it cannot be
read. -/
theorem unreadable_untouched {b : Book} (hk : b.store.filled.Keyed)
    {steps : List (Amount × Step)} (hsteps : ∀ x ∈ steps, x.2.IsEngine) {d : DealRow}
    (hd : d ∈ b.store.heldDeals) (hblank : d.Unreadable) :
    let t := ((Session.mk b [] []).after steps).book.store
    t.dealsAt d.id = [d] ∧ t.spendingsAt d.id = b.store.spendingsAt d.id ∧
      (b.store.spendings.isSome = true → ∀ id : Id, id.toText = d.id → ∀ actor : String,
        let told : Failure := .corruptRow ("invalid stored currency " ++ Text.quoted d.currency)
        Ledger.get t actor id = .error told ∧ ∀ (j : Journal) (c : Book), c.store = t →
          Ledger.remove actor id j c = (.error told, j, c)) := by
  intro t
  have hstart : b.store.Preserves b.store d := ⟨hk, .refl _, .refl _ _⟩
  have hend : t.Preserves b.store d :=
    ((stable_preserves hd hblank).satisfies_after hstart hsteps).store
  have hmem := hend.mem_heldDeals hd
  refine ⟨hend.keyed.dealsAt_eq hmem, hend.agrees.2, ?_⟩
  intro hp id hid actor told
  have hget : Ledger.get t actor id = .error told :=
    Ledger.get_of_unreadable hend.keyed hmem (hend.tables.spendings ▸ hp) hblank hid actor
  refine ⟨hget, ?_⟩
  intro j c hc
  rw [← hc] at hget
  simp only [Ledger.remove, hget]

/-- The tip stands under the id that is handed out next. -/
def tipBook : Book :=
  ⟨⟨some [], some [Ledger.tip], some [⟨"s", (Id.minted 2).toText, 1, "bob"⟩], true⟩, 2, []⟩

/-- Bob tries to remove it, by the ledger and by hand, and to take its id. -/
def tipSteps : List (Amount × Step) :=
  [(1, .removeExpense "bob" (Id.minted 2) (some "j")),
    (2, .hold "h" (.removeExpense (.new (Id.minted 2)))), (3, .perform "h"), (4, .reverse "h"),
    (5, .addExpense "bob" supper (some "j")), (6, .journalRollback "j")]

theorem tip_stays : tipBook.store.filled.Keyed ∧ (∀ x ∈ tipSteps, x.2.IsEngine) ∧
    Ledger.tip ∈ tipBook.store.heldDeals ∧ Ledger.tip.Unreadable ∧
      let t := ((Session.mk tipBook [] []).after tipSteps).book.store
      t.dealsAt Ledger.tip.id = [Ledger.tip] ∧ Ledger.get t "bob" (Id.minted 2) =
        .error (.corruptRow ("invalid stored currency " ++ Text.quoted Ledger.tip.currency)) := by
  have hk : tipBook.store.filled.Keyed :=
    ⟨⟨rfl, rfl, rfl⟩, by decide, by decide, by decide, by decide +kernel⟩
  have hsteps : ∀ x ∈ tipSteps, x.2.IsEngine := by
    simp [tipSteps, Step.IsEngine, Operation.IsUnused, Operation.isPerformed, RemoveExpense.new]
  have hd : Ledger.tip ∈ tipBook.store.heldDeals := List.mem_cons_self
  have hblank : Ledger.tip.Unreadable := DealRow.unreadable_iff.mpr (by decide +kernel)
  obtain ⟨hdeal, -, htold⟩ := unreadable_untouched hk hsteps hd hblank
  exact ⟨hk, hsteps, hd, hblank, hdeal, (htold rfl (Id.minted 2) rfl "bob").1⟩

end Session
end FriendLedger
