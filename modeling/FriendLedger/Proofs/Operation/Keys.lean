import FriendLedger.Proofs.Ledger.Listing
import FriendLedger.Proofs.Operation.Undo

/-! How often the keys of rows occur, in the store and among the rows that a
performed removal keeps. As long as the ids last, every key occurs once at most: an
operation moves rows between the store and itself, and new rows come under new ids. -/

namespace FriendLedger

set_option autoImplicit false

/-! ### New ids -/

namespace Id

theorem mod_eq_of_lastDigits_eq {k m n : Nat} (h : lastDigits k m = lastDigits k n) :
    m % 16 ^ k = n % 16 ^ k := by
  induction k generalizing m n with
  | zero => simp [Nat.mod_one]
  | succ k ih =>
    simp only [lastDigits] at h
    obtain ⟨hinit, hlast⟩ := List.append_inj' h rfl
    have hdiv := ih hinit
    have hmod : m % 16 = n % 16 := by simpa [Fin.ofNat] using hlast
    rw [Nat.pow_succ, Nat.mul_comm, Nat.mod_mul, Nat.mod_mul, hmod, hdiv]

theorem minted_inj {m n : Nat} (hm : m < capacity) (hn : n < capacity) (h : minted m = minted n) :
    m = n := by
  have hd : lastDigits 12 m = lastDigits 12 n := by
    have := congrArg digits h
    simpa [minted] using this
  have hmod : m % capacity = n % capacity := mod_eq_of_lastDigits_eq hd
  rwa [Nat.mod_eq_of_lt hm, Nat.mod_eq_of_lt hn] at hmod

theorem minted_toText_inj {m n : Nat} (hm : m < capacity) (hn : n < capacity)
    (h : (minted m).toText = (minted n).toText) : m = n := minted_inj hm hn (toText_inj h)

end Id

namespace Book

/-- The ids have run out: the next numbers stand for ids that were handed out before. -/
def Exhausted (b : Book) : Prop := Id.capacity < b.nextId

variable {b : Book} {e : Expense}

theorem not_exhausted_of_useIds {n : Nat} (h : ¬ (b.useIds n).Exhausted) : ¬ b.Exhausted :=
  fun hb => h (Nat.lt_of_lt_of_le hb (Nat.le_add_right _ _))

theorem tail_upcomingIds (n : Nat) :
    (b.upcomingIds (n + 1)).tail = (List.range n).map fun k => Id.minted (b.nextId + (k + 1)) := by
  simp [upcomingIds, List.range_succ_eq_map, Function.comp_def]

theorem spendings_rowsFor : (b.rowsFor e).spendings =
    e.shares.zipWith (fun s i => ⟨i.toText, (Id.minted b.nextId).toText, s.signedCost, s.counterparty⟩)
      ((List.range e.shares.length).map fun k => Id.minted (b.nextId + (k + 1))) := by
  rw [rowsFor, tail_upcomingIds]
  rfl

theorem ids_rowsFor : (b.rowsFor e).spendings.map (·.id) =
    (List.range e.shares.length).map fun k => (Id.minted (b.nextId + (k + 1))).toText := by
  rw [spendings_rowsFor]
  exact List.ext_getElem (by simp) fun i hi hi' => by simp

theorem encodes_rowsFor : (b.rowsFor e).Encodes (Id.minted b.nextId) e where
  deal := rfl
  shares := by
    rw [spendings_rowsFor]
    exact List.ext_getElem (by simp) fun i hi hi' => by simp [SpendingRow.toShare]
  coherent := ExpenseRows.coherent_ofExpense _ _ _

end Book

/-! ### Occurrences of keys -/

inductive Key
  | deal (id : String)
  | spending (id : String)

def Key.id : Key → String
  | .deal id => id
  | .spending id => id

def ExpenseRows.count (rows : ExpenseRows) : Key → Nat
  | .deal id => [rows.deal.id].count id
  | .spending id => (rows.spendings.map (·.id)).count id

def Store.count (s : Store) : Key → Nat
  | .deal id => (s.heldDeals.map (·.id)).count id
  | .spending id => (s.heldSpendings.map (·.id)).count id

/-- How often the key occurs among the rows that the operation keeps. -/
def Operation.count : Operation → Key → Nat
  | .removeExpense ⟨_, some rows⟩, k => rows.count k
  | _, _ => 0

namespace Store
variable {s : Store} {rows : ExpenseRows} {k : Key}

theorem count_withExpense : (s.withExpense rows).count k = s.count k + rows.count k := by
  cases k <;> simp [count, ExpenseRows.count, List.count_append]

theorem count_withoutExpense_le (id : String) : (s.withoutExpense id).count k ≤ s.count k := by
  cases k with
  | deal i => exact (List.filter_sublist.map _).count_le i
  | spending i => exact (List.filter_sublist.map _).count_le i

theorem count_filter_add {α : Type} (owner key : α → String) (xs : List α) (id i : String) :
    ((xs.filter (owner · ≠ id)).map key).count i + ((xs.filter (owner · == id)).map key).count i =
      (xs.map key).count i := by
  induction xs with
  | nil => rfl
  | cons x xs ih =>
    by_cases h : owner x = id <;> simp [List.count_cons, h] at ih ⊢ <;> omega

/-- The rows of an expense and all others make up the store. -/
theorem Keyed.count_withoutExpense (hk : s.Keyed) {id : String} {d : DealRow}
    (hd : (s.dealsAt id).head? = some d) :
    (s.withoutExpense id).count k + (ExpenseRows.mk d (s.spendingsAt id)).count k = s.count k := by
  cases k with
  | deal i =>
    have hcount := count_filter_add (·.id) (·.id) s.heldDeals id i
    have hat : s.heldDeals.filter (·.id == id) = [d] := hk.dealsAt_of_head? hd
    rw [hat] at hcount
    exact hcount
  | spending i => exact count_filter_add (·.dealId) (·.id) s.heldSpendings id i

/-- Rows fit into the store when none of their keys occurs twice. -/
theorem admits_of_count (h : ∀ k, s.count k + rows.count k ≤ 1) : s.Admits rows where
  deal d hd hid := by
    have hdeal := h (.deal rows.deal.id)
    have hpos : 0 < (s.heldDeals.map (·.id)).count rows.deal.id :=
      List.count_pos_iff.mpr (List.mem_map.mpr ⟨d, hd, hid⟩)
    simp only [count, ExpenseRows.count, List.count_singleton_self] at hdeal
    omega
  nodup := by
    rw [List.nodup_iff_count_le_one]
    intro i
    have hspending := h (.spending i)
    simp only [count, ExpenseRows.count] at hspending
    omega
  spendings p hp q hq hid := by
    have hspending := h (.spending p.id)
    have hpos : 0 < (s.heldSpendings.map (·.id)).count p.id :=
      List.count_pos_iff.mpr (List.mem_map.mpr ⟨q, hq, hid⟩)
    have hpos' : 0 < (rows.spendings.map (·.id)).count p.id :=
      List.count_pos_iff.mpr (List.mem_map.mpr ⟨p, hp, rfl⟩)
    simp only [count, ExpenseRows.count] at hspending
    omega

end Store

namespace Book
variable {b b' : Book} {e : Expense} {kept kept' : Key → Nat} {rows : ExpenseRows} {k : Key}

theorem exists_of_count_rowsFor (h : 0 < (b.rowsFor e).count k) :
    ∃ n, b.nextId ≤ n ∧ n < b.nextId + (e.shares.length + 1) ∧ k.id = (Id.minted n).toText := by
  cases k with
  | deal id =>
    have hid : id = (Id.minted b.nextId).toText := by
      simpa [rowsFor, ExpenseRows.ofExpense] using List.count_pos_iff.mp h
    exact ⟨b.nextId, by omega, by omega, hid⟩
  | spending id =>
    have hmem := List.count_pos_iff.mp h
    rw [ids_rowsFor] at hmem
    obtain ⟨i, hi, rfl⟩ := List.mem_map.mp hmem
    have := List.mem_range.mp hi
    exact ⟨b.nextId + (i + 1), by omega, by omega, rfl⟩

theorem count_rowsFor_le_one (h : b.nextId + (e.shares.length + 1) ≤ Id.capacity) :
    (b.rowsFor e).count k ≤ 1 := by
  cases k with
  | deal id => exact List.nodup_iff_count_le_one.mp (List.nodup_singleton _) id
  | spending id =>
    refine List.nodup_iff_count_le_one.mp ?_ id
    rw [ids_rowsFor]
    refine List.Nodup.map_on ?_ List.nodup_range
    intro i hi j hj hij
    rw [List.mem_range] at hi hj
    have := Id.minted_toText_inj (by omega) (by omega) hij
    omega

/-- Every key occurs once at most, in the store or among the rows kept elsewhere, and
all keys have been handed out. -/
def Sound (b : Book) (kept : Key → Nat) : Prop :=
  ¬ b.Exhausted → ∀ k, b.store.count k + kept k ≤ 1 ∧
    (0 < b.store.count k + kept k → ∃ n < b.nextId, k.id = (Id.minted n).toText)

theorem Sound.mono (h : b.Sound kept) (hn : b.nextId ≤ b'.nextId)
    (hle : ∀ k, b'.store.count k + kept' k ≤ b.store.count k + kept k) : b'.Sound kept' := by
  intro hb' k
  have hb : ¬ b.Exhausted := fun he => hb' (Nat.lt_of_lt_of_le he hn)
  obtain ⟨hone, hissued⟩ := h hb k
  refine ⟨Nat.le_trans (hle k) hone, fun hpos => ?_⟩
  obtain ⟨n, hlt, hid⟩ := hissued (Nat.lt_of_lt_of_le hpos (hle k))
  exact ⟨n, Nat.lt_of_lt_of_le hlt hn, hid⟩

theorem Sound.weaken (h : b.Sound kept) (hle : ∀ k, kept' k ≤ kept k) : b.Sound kept' :=
  h.mono (Nat.le_refl _) fun k => Nat.add_le_add_left (hle k) _

/-- New rows bring keys that occur nowhere. -/
theorem Sound.count_eq_zero (h : b.Sound kept)
    (hb : ¬ (b.useIds (e.shares.length + 1)).Exhausted) (hpos : 0 < (b.rowsFor e).count k) :
    b.store.count k + kept k = 0 := by
  have hcap : b.nextId + (e.shares.length + 1) ≤ Id.capacity := Nat.le_of_not_lt hb
  obtain ⟨n, hle, hlt, hid⟩ := exists_of_count_rowsFor hpos
  by_contra hne
  obtain ⟨m, hm, hid'⟩ := (h (not_exhausted_of_useIds hb) k).2
    (Nat.pos_of_ne_zero hne)
  have := Id.minted_toText_inj (by omega) (by omega) (hid'.symm.trans hid)
  omega

theorem Sound.admits_rowsFor (h : b.Sound kept)
    (hb : ¬ (b.useIds (e.shares.length + 1)).Exhausted) : b.store.Admits (b.rowsFor e) := by
  apply Store.admits_of_count
  intro k
  have hle := count_rowsFor_le_one (k := k) (Nat.le_of_not_lt hb)
  by_cases hpos : 0 < (b.rowsFor e).count k
  · have := h.count_eq_zero hb hpos
    omega
  · have := (h (not_exhausted_of_useIds hb) k).1
    omega

theorem Sound.withRows (h : b.Sound kept) :
    ({ b.useIds (e.shares.length + 1) with store := b.store.withExpense (b.rowsFor e) } : Book).Sound
      kept := by
  intro hb k
  have hb : ¬ (b.useIds (e.shares.length + 1)).Exhausted := hb
  have hle := count_rowsFor_le_one (k := k) (Nat.le_of_not_lt hb)
  obtain ⟨hone, hissued⟩ := h (not_exhausted_of_useIds hb) k
  simp only [Store.count_withExpense, useIds]
  by_cases hpos : 0 < (b.rowsFor e).count k
  · have hzero := h.count_eq_zero hb hpos
    obtain ⟨n, -, hlt, hid⟩ := exists_of_count_rowsFor hpos
    exact ⟨by omega, fun _ => ⟨n, hlt, hid⟩⟩
  · refine ⟨by omega, fun hp => ?_⟩
    obtain ⟨n, hlt, hid⟩ := hissued (by omega)
    exact ⟨n, by omega, hid⟩

/-- Rows that are kept can be put back. -/
theorem Sound.admits (h : b.Sound fun k => rows.count k + kept k) (hb : ¬ b.Exhausted) :
    b.store.Admits rows := by
  apply Store.admits_of_count
  intro k
  have hone : b.store.count k + (rows.count k + kept k) ≤ 1 := (h hb k).1
  omega

end Book

namespace Operation
variable {b b' : Book} {op op' : Operation} {kept : Key → Nat}

/-- A performance moves the rows of an expense into the operation, or brings new ones. -/
theorem Effect.sound {out : Output} (h : Effect b op out op' b') (hk : b.store.Keyed)
    (hs : b.Sound fun k => op.count k + kept k) : b'.Sound fun k => op'.count k + kept k := by
  cases h with
  | addEdge => exact hs
  | removeEdge => exact hs
  | addExpense => exact hs.withRows
  | removeExpense hd =>
    refine hs.mono (Nat.le_refl _) fun k => ?_
    have := hk.count_withoutExpense hd (k := k)
    simp only [count]
    omega
  | step => exact hs

theorem Reversal.sound (h : Reversal b op op' b') (hc : b.store.Complete) (hop : op.KeepsExpense)
    (hs : b.Sound fun k => op.count k + kept k) :
    b'.nextId = b.nextId ∧ b'.Sound fun k => op'.count k + kept k := by
  cases h with
  | addEdge => exact ⟨rfl, hs⟩
  | removeEdge_missed => exact ⟨rfl, hs⟩
  | removeEdge =>
    refine ⟨rfl, hs.mono (Nat.le_refl _) fun k => Nat.add_le_add_right (Nat.le_of_eq ?_) _⟩
    cases k <;> simp [Store.count]
  | addExpense =>
    exact ⟨rfl, hs.mono (Nat.le_refl _) fun k =>
      Nat.add_le_add_right (Store.count_withoutExpense_le _) _⟩
  | removeExpense hins =>
    obtain ⟨-, rfl⟩ := (hc.insertExpense_eq_ok_iff hop.1).mp hins
    refine ⟨rfl, hs.mono (Nat.le_refl _) fun k => ?_⟩
    simp only [Store.count_withExpense, count]
    omega
  | step => exact ⟨rfl, hs⟩

end Operation
end FriendLedger
