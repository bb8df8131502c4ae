import FriendLedger.Ledger.Balances
import FriendLedger.Proofs.Outcome
import Mathlib.Algebra.BigOperators.Group.List.Basic

/-! Exact sums behind checked ones: the total of a group, groups that are summed one
by one, and purses to which stored amounts are added. -/

namespace FriendLedger

set_option autoImplicit false

/-- Of distinct keys one at most is met. -/
theorem sum_ite_eq {ks : List String} (hn : ks.Nodup) {a : String} (ha : a ∈ ks) (n : Int) :
    (ks.map fun k => if a = k then n else 0).sum = n := by
  induction ks with
  | nil => cases ha
  | cons k ks ih =>
    obtain ⟨hk, hks⟩ := List.nodup_cons.mp hn
    rw [List.map_cons, List.sum_cons]
    by_cases hak : a = k
    · have hzero : (ks.map fun k => if a = k then n else 0).sum = 0 := by
        apply List.sum_eq_zero
        intro x hx
        obtain ⟨k', hk', rfl⟩ := List.mem_map.mp hx
        refine if_neg fun heq : a = k' => hk ?_
        rwa [← hak, heq]
      rw [if_pos hak, hzero, Int.add_zero]
    · rcases List.mem_cons.mp ha with rfl | ha
      · exact absurd rfl hak
      · rw [if_neg hak, Int.zero_add, ih hks ha]

/-- Summing by keys is summing. -/
theorem sum_by_key {α : Type} (key : α → String) (f : α → Int) {ks : List String} (hn : ks.Nodup)
    {xs : List α} (hxs : ∀ x ∈ xs, key x ∈ ks) :
    (ks.map fun k => ((xs.filter (key · = k)).map f).sum).sum = (xs.map f).sum := by
  induction xs with
  | nil => simp
  | cons x xs ih =>
    have hcons (k : String) : (((x :: xs).filter (key · = k)).map f).sum =
        (if key x = k then f x else 0) + ((xs.filter (key · = k)).map f).sum := by
      by_cases h : key x = k <;> simp [h]
    simp only [hcons]
    rw [List.sum_map_add, sum_ite_eq hn (hxs x List.mem_cons_self),
      ih fun y hy => hxs y (List.mem_cons_of_mem x hy), List.map_cons, List.sum_cons]

namespace Amount

theorem toInt_of_foldlM_add? {as : List Amount} {a s : Amount} (h : as.foldlM add? a = some s) :
    s.toInt = a.toInt + (as.map Int64.toInt).sum := by
  induction as generalizing a with
  | nil =>
    simp only [List.foldlM_nil, Option.pure_def, Option.some.injEq] at h
    simp [h]
  | cons b as ih =>
    simp only [List.foldlM_cons, Option.bind_eq_bind, Option.bind_eq_some_iff] at h
    obtain ⟨c, hc, hs⟩ := h
    have := ofInt?_eq_some_iff.mp hc
    rw [ih hs, this, List.map_cons, List.sum_cons, Int.add_assoc]

/-- A checked sum that succeeds is exact. -/
theorem toInt_of_sum? {as : List Amount} {s : Amount} (h : sum? as = some s) :
    s.toInt = (as.map Int64.toInt).sum := by
  have := toInt_of_foldlM_add? h
  simpa using this

theorem foldlM_add?_isSome_iff {as : List Amount} {a : Amount} :
    (as.foldlM add? a).isSome = true ↔
      ∀ pre, pre <+: as → InRange (a.toInt + (pre.map Int64.toInt).sum) := by
  induction as generalizing a with
  | nil =>
    simp only [List.prefix_nil, forall_eq, List.map_nil, List.sum_nil, Int.add_zero]
    exact ⟨fun _ => inRange_toInt a, fun _ => rfl⟩
  | cons b as ih =>
    rw [List.foldlM_cons]
    cases hsum : add? a b with
    | none =>
      constructor
      · intro h
        cases h
      · intro h
        have hb := h [b] (List.prefix_append [b] as)
        rw [List.map_singleton, List.sum_singleton] at hb
        exact absurd hb (ofInt?_eq_none_iff.mp hsum)
    | some c =>
      have hc : c.toInt = a.toInt + b.toInt := ofInt?_eq_some_iff.mp hsum
      refine (ih (a := c)).trans ?_
      constructor
      · intro h pre hpre
        rcases List.prefix_cons_iff.mp hpre with rfl | ⟨rest, rfl, hrest⟩
        · simpa using inRange_toInt a
        · rw [List.map_cons, List.sum_cons, ← Int.add_assoc, ← hc]
          exact h rest hrest
      · intro h pre hpre
        have hb := h (b :: pre) (List.cons_prefix_cons.mpr ⟨rfl, hpre⟩)
        rwa [List.map_cons, List.sum_cons, ← Int.add_assoc, ← hc] at hb

/-- A checked sum succeeds exactly when no partial sum leaves the range. -/
theorem sum?_isSome_iff {as : List Amount} :
    (sum? as).isSome = true ↔ ∀ pre, pre <+: as → InRange (pre.map Int64.toInt).sum := by
  rw [sum?, foldlM_add?_isSome_iff]
  simp

end Amount

theorem toInt_of_total {as : List Amount} {a : Amount} (h : Ledger.total as = .ok a) :
    a.toInt = (as.map Int64.toInt).sum := by
  unfold Ledger.total at h
  cases hs : Amount.sum? as with
  | none =>
    rw [hs] at h
    cases h
  | some s =>
    rw [hs] at h
    cases h
    exact Amount.toInt_of_sum? hs

namespace Purse

theorem find?_insertEntry (c c' : Currency) (a : Amount) (es : List (Currency × Amount)) :
    (insertEntry c a es).find? (·.1 = c') = if c' = c then some (c, a) else es.find? (·.1 = c') := by
  induction es with
  | nil =>
    by_cases h : c' = c
    · simp [insertEntry, h]
    · simp [insertEntry, h, Ne.symm h]
  | cons e es ih =>
    unfold insertEntry
    split
    · by_cases h : c' = c
      · simp [h]
      · simp [h, Ne.symm h]
    · split
      · rename_i hgt
        have hne : e.1 ≠ c := fun heq => String.lt_irrefl _ (heq ▸ hgt)
        by_cases he : e.1 = c'
        · have hc : c' ≠ c := he ▸ hne
          simp [he, hc]
        · simp only [List.find?_cons, he, decide_false, ih]
      · rename_i hge hle
        have heq : c = e.1 := Currency.ext_code (String.le_antisymm hle hge)
        subst heq
        by_cases h : c' = e.1
        · simp [h]
        · simp [h, Ne.symm h]

theorem get?_insert (p : Purse) (c c' : Currency) (a : Amount) :
    (p.insert c a).get? c' = if c' = c then some a else p.get? c' := by
  simp only [get?, insert, find?_insertEntry]
  split <;> rfl

/-- The exact amount in a currency, zero when there is none. -/
def amountIn (p : Purse) (c : Currency) : Int := ((p.get? c).getD 0).toInt

theorem add?_eq_some {p p' : Purse} {c : Currency} {a : Amount} (h : p.add? c a = some p')
    (c' : Currency) :
    ((p'.get? c').isSome ↔ (p.get? c').isSome ∨ c = c') ∧
      p'.amountIn c' = p.amountIn c' + if c = c' then a.toInt else 0 := by
  obtain ⟨s, hs, rfl⟩ := Option.map_eq_some_iff.mp h
  simp only [amountIn, get?_insert]
  by_cases hc : c' = c
  · subst hc
    simpa using Amount.ofInt?_eq_some_iff.mp hs
  · simp [hc, Ne.symm hc]

end Purse

namespace Ledger

theorem addStored_eq_ok {p p' : Purse} {g : String × Amount} (h : addStored p g = .ok p') :
    ∃ c, Currency.ofText? g.1 = some c ∧ p.add? c g.2 = some p' := by
  obtain ⟨c, hc, h⟩ := bind_eq_ok_iff.mp h
  refine ⟨c, ?_, ?_⟩
  · cases ho : Currency.ofText? g.1 with
    | none =>
      simp only [Currency.decode, ho, orStop] at hc
      cases hc
    | some c' =>
      simp only [Currency.decode, ho, orStop] at hc
      cases hc
      rfl
  · cases ha : p.add? c g.2 with
    | none =>
      rw [ha] at h
      cases h
    | some q =>
      rw [ha] at h
      cases h
      rfl

/-- Stored amounts go under the currencies that they name, and add up exactly. -/
theorem foldlM_addStored_eq_ok {groups : List (String × Amount)} {p p' : Purse}
    (h : groups.foldlM addStored p = .ok p') :
    (∀ g ∈ groups, Currency.ofText? g.1 ≠ none) ∧
      ∀ c, ((p'.get? c).isSome ↔
          (p.get? c).isSome ∨ ∃ g ∈ groups, Currency.ofText? g.1 = some c) ∧
        p'.amountIn c = p.amountIn c +
          ((groups.filter (Currency.ofText? ·.1 = some c)).map (·.2.toInt)).sum := by
  induction groups generalizing p with
  | nil =>
    cases h
    simp
  | cons g groups ih =>
    rw [List.foldlM_cons] at h
    obtain ⟨q, hq, h⟩ := bind_eq_ok_iff.mp h
    obtain ⟨c₀, hc₀, hadd⟩ := addStored_eq_ok hq
    obtain ⟨hdecoded, hrest⟩ := ih h
    constructor
    · intro g' hg'
      rcases List.mem_cons.mp hg' with rfl | hg'
      · rw [hc₀]
        exact Option.some_ne_none c₀
      · exact hdecoded g' hg'
    · intro c
      obtain ⟨hmem, hsum⟩ := hrest c
      obtain ⟨hmem', hsum'⟩ := Purse.add?_eq_some hadd c
      constructor
      · rw [hmem, hmem']
        simp [hc₀, or_assoc]
      · rw [hsum, hsum']
        by_cases hc : c₀ = c <;> simp [hc₀, hc, Int.add_assoc]

end Ledger
end FriendLedger
