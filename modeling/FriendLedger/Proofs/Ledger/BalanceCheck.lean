import FriendLedger.Ledger.Account
import FriendLedger.Proofs.Ledger.Sums

/-! The question whether the shares of an expense add up, which is asked before the
expense is stored. The answer never matters; that there is one does. The shares are summed
from left to right, and an expense with a partial sum out of range is not stored, although
the journal would store it. -/

namespace FriendLedger

set_option autoImplicit false

/-- No partial sum of the shares leaves the range. -/
def Expense.SumsInRange (e : Expense) : Prop :=
  ∀ costs, costs <+: e.shares.map (·.signedCost) → Amount.InRange (costs.map Int64.toInt).sum

theorem Expense.isBalanced?_isSome_iff (e : Expense) :
    e.isBalanced?.isSome = true ↔ e.SumsInRange := by
  rw [isBalanced?, Option.isSome_map, shareTotal?, Amount.sum?_isSome_iff]
  rfl

namespace Ledger
variable {actor : String} {e : Expense}

theorem add_of_sumsInRange (h : e.involves actor = true) (hsums : e.SumsInRange) (j : Journal)
    (b : Book) : add actor e j b =
      (orStop (j.perform .addExpense (.new e) b).1, (j.perform .addExpense (.new e) b).2) := by
  obtain ⟨balanced, hbalanced⟩ :=
    Option.isSome_iff_exists.mp (e.isBalanced?_isSome_iff.mpr hsums)
  simp only [add, h, if_true, hbalanced]

theorem add_of_not_sumsInRange (h : e.involves actor = true) (hsums : ¬ e.SumsInRange)
    (j : Journal) (b : Book) : add actor e j b = (.error .overflow, j, b) := by
  rw [← e.isBalanced?_isSome_iff, Bool.not_eq_true, Option.isSome_eq_false_iff,
    Option.isNone_iff_eq_none] at hsums
  simp only [add, h, if_true, hsums]

/-- On every book and with every journal, the call does what the journal does with the same
expense, balanced or not, exactly when the shares can be summed; otherwise it stops and
nothing is stored or recorded. -/
theorem add_eq_perform_iff (h : e.involves actor = true) (j : Journal) (b : Book) :
    (add actor e j b = (orStop (j.perform .addExpense (.new e) b).1,
      (j.perform .addExpense (.new e) b).2) ↔ e.SumsInRange) ∧
    (¬ e.SumsInRange → add actor e j b = (.error .overflow, j, b)) := by
  refine ⟨⟨?_, fun hsums => add_of_sumsInRange h hsums j b⟩,
    fun hsums => add_of_not_sumsInRange h hsums j b⟩
  intro hadd
  by_contra hsums
  rw [add_of_not_sumsInRange h hsums] at hadd
  -- What the journal answers is a value or a failure of the store.
  cases hperf : (j.perform .addExpense (.new e) b).1 <;> rw [hperf] at hadd <;> cases hadd

/-- Shares that add up to neither zero nor the total, and one as large as can be. -/
def bequest : Expense :=
  ⟨none, 1, "bequest", 3, ⟨"SEK", by decide, by decide +kernel⟩,
    [⟨"alice", -2⟩, ⟨"bob", 9223372036854775807⟩]⟩

theorem bequest_added : bequest.involves "alice" = true ∧ bequest.isBalanced? = some false ∧
    (add "alice" bequest .empty .fresh).1 = .ok (Id.minted 1) := by
  have hbalanced : bequest.isBalanced? = some false := by decide +kernel
  have hsums : bequest.SumsInRange :=
    bequest.isBalanced?_isSome_iff.mp (by rw [hbalanced]; rfl)
  have hparty : bequest.involves "alice" = true := by decide
  have hadd := (add_eq_perform_iff hparty .empty .fresh).1.mpr hsums
  refine ⟨hparty, hbalanced, ?_⟩
  rw [hadd]
  decide +kernel

/-- The same bequest beside one coin more. -/
theorem coin_not_added :
    let e : Expense := { bequest with shares := [⟨"alice", 9223372036854775807⟩, ⟨"bob", 1⟩] }
    e.involves "alice" = true ∧ add "alice" e .empty .fresh = (.error .overflow, .empty, .fresh) ∧
      (Journal.empty.perform .addExpense (.new e) .fresh).1 = .ok (Id.minted 1) := by
  decide +kernel

end Ledger
end FriendLedger
