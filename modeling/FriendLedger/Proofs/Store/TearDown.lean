import FriendLedger.Proofs.Store.Keys
import FriendLedger.Store.Schema

/-! Tables dropped one after another, with nothing to take a drop back. Dropping stops at
the first table that is missing. Those before it are gone by then; the others stay as they
were, and so does the record of the schema. -/

namespace FriendLedger

set_option autoImplicit false

namespace Store

/-- Whether a table is there. -/
def has (s : Store) : Table → Bool
  | .friendRequests => s.edges.isSome
  | .deals => s.deals.isSome
  | .spendings => s.spendings.isSome

theorem Complete.has {s : Store} (h : s.Complete) (t : Table) : s.has t = true := by
  cases t <;> simp [Store.has, h.edges, h.deals, h.spendings]

/-- The store with some tables taken away. -/
def lacking (s : Store) (tables : List Table) : Store where
  edges := if .friendRequests ∈ tables then none else s.edges
  deals := if .deals ∈ tables then none else s.deals
  spendings := if .spendings ∈ tables then none else s.spendings
  recorded := s.recorded

section Lacking
variable (s : Store) (t : Table) (tables : List Table)

@[simp] theorem lacking_nil : s.lacking [] = s := by simp [lacking]

theorem lacking_cons : s.lacking (t :: tables) = (s.lacking [t]).lacking tables := by
  cases t <;> simp [lacking]

theorem has_lacking : (s.lacking tables).has t = (s.has t && decide (t ∉ tables)) := by
  cases t <;> simp only [has, lacking] <;> split <;> simp [*]

theorem heldSpendings_lacking : (s.lacking tables).heldSpendings =
    if .spendings ∈ tables then [] else s.heldSpendings := by
  simp only [heldSpendings, lacking]
  split <;> rfl

end Lacking

/-! ### Dropping -/

/-- Deals cannot be dropped before the spendings that refer to them. -/
theorem drop_eq (s : Store) (t : Table) : s.drop t =
    if s.has t then
      if t = .deals ∧ s.heldSpendings ≠ [] then .error .dealsInUse else .ok (s.lacking [t])
    else .error (.missingTable t.name) := by
  obtain ⟨edges, deals, spendings, recorded⟩ := s
  cases t with
  | friendRequests => cases edges <;> rfl
  | spendings => cases spendings <;> rfl
  | deals =>
    cases deals with
    | none => rfl
    | some rows =>
      have hempty : (spendings.getD []).isEmpty = true ↔ spendings.getD [] = [] :=
        List.isEmpty_iff
      simp only [drop, dealRows, rowsOf, heldSpendings, has, ok_bind, hempty]
      split <;> rename_i h <;> simp [h, lacking]

theorem drop_eq_ok_iff {s s' : Store} {t : Table} : s.drop t = .ok s' ↔
    s.has t = true ∧ (t = .deals → s.heldSpendings = []) ∧ s' = s.lacking [t] := by
  rw [drop_eq]
  split <;> rename_i hhas
  · split <;> rename_i hdeals
    · simp [hdeals]
    · have hfree : t = .deals → s.heldSpendings = [] := fun ht =>
        Classical.byContradiction fun hheld => hdeals ⟨ht, hheld⟩
      rw [Except.ok.injEq]
      exact ⟨fun h => ⟨hhas, hfree, h.symm⟩, fun h => h.2.2.symm⟩
  · simp [hhas]

/-- No table twice, and the spendings before the deals. -/
def Droppable (tables : List Table) : Prop :=
  tables.Pairwise fun t u => t ≠ u ∧ (t = .deals → u ≠ .spendings)

section DropAll
variable {s : Store} {t : Table} {tables : List Table}

/-- No spending is left when the dropping comes to the deals. -/
def Freed (s : Store) (tables : List Table) : Prop := s.heldSpendings = [] ∨ .spendings ∈ tables

theorem Freed.deals (h : s.Freed (t :: tables)) (horder : Droppable (t :: tables))
    (ht : t = .deals) : s.heldSpendings = [] := by
  refine h.resolve_right fun hmem => ?_
  rcases List.mem_cons.mp hmem with heq | hrest
  · cases heq.trans ht
  · exact ((List.pairwise_cons.mp horder).1 _ hrest).2 ht rfl

theorem Freed.lacking (h : s.Freed (t :: tables)) : (s.lacking [t]).Freed tables := by
  rw [Freed, heldSpendings_lacking]
  rcases h with hheld | hmem
  · simp [hheld]
  · rcases List.mem_cons.mp hmem with rfl | hrest
    · simp
    · exact .inr hrest

/-- Only a table that is missing stops the dropping. -/
theorem dropAll_cases (horder : Droppable tables) (hfreed : s.Freed tables) :
    (s.dropAll tables = (.ok (), s.lacking tables) ∧ ∀ t ∈ tables, s.has t = true) ∨
    ∃ gone t kept, tables = gone ++ t :: kept ∧ (∀ u ∈ gone, s.has u = true) ∧
      s.has t = false ∧ s.dropAll tables = (.error (.missingTable t.name), s.lacking gone) := by
  induction tables generalizing s with
  | nil => exact .inl ⟨by rw [dropAll, lacking_nil], List.forall_mem_nil _⟩
  | cons t tables ih =>
    obtain ⟨hfirst, hrest⟩ := List.pairwise_cons.mp horder
    rw [dropAll]
    cases hhas : s.has t with
    | false =>
      refine .inr ⟨[], t, tables, rfl, List.forall_mem_nil _, hhas, ?_⟩
      simp [drop_eq, hhas]
    | true =>
      have hsame {u : Table} (hu : u ∈ tables) : (s.lacking [t]).has u = s.has u := by
        simp [has_lacking, (hfirst u hu).1.symm]
      simp only [drop_eq_ok_iff.mpr ⟨hhas, hfreed.deals horder, rfl⟩]
      rcases ih hrest hfreed.lacking with ⟨hall, hthere⟩ | ⟨gone, u, kept, rfl, hgone, hu, hstop⟩
      · refine .inl ⟨by rw [hall, ← lacking_cons], List.forall_mem_cons.mpr ⟨hhas, ?_⟩⟩
        exact fun u hu => (hsame hu).symm.trans (hthere u hu)
      · refine .inr ⟨t :: gone, u, kept, rfl, List.forall_mem_cons.mpr ⟨hhas, ?_⟩, ?_, ?_⟩
        · exact fun v hv => (hsame (List.mem_append_left _ hv)).symm.trans (hgone v hv)
        · exact (hsame (by simp)).symm.trans hu
        · rw [hstop, ← lacking_cons]

end DropAll

/-- The tables in the order in which tearing down drops them. -/
def dropOrder : List Table := [.spendings, .deals, .friendRequests]

theorem droppable_dropOrder : Droppable dropOrder := by
  rw [Droppable]
  decide

theorem mem_dropOrder (t : Table) : t ∈ dropOrder := by cases t <;> decide

/-- Tearing down either finds all tables or stops at the first one that is missing. -/
theorem tearDown_cases {s : Store} (hrecorded : s.recorded = true) :
    (s.tearDown = (.ok (), .blank) ∧ ∀ t, s.has t = true) ∨
    ∃ gone t kept, dropOrder = gone ++ t :: kept ∧ (∀ u ∈ gone, s.has u = true) ∧
      s.has t = false ∧ s.tearDown = (.error (.missingTable t.name), s.lacking gone) := by
  have hfreed : s.Freed dropOrder := .inr (mem_dropOrder .spendings)
  have hcases := dropAll_cases droppable_dropOrder hfreed
  rw [tearDown, if_pos hrecorded, ← dropOrder]
  rcases hcases with ⟨hall, hthere⟩ | ⟨gone, t, kept, horder, hgone, ht, hstop⟩
  · rw [hall]
    exact .inl ⟨rfl, fun t => hthere t (mem_dropOrder t)⟩
  · rw [hstop]
    exact .inr ⟨gone, t, kept, horder, hgone, ht, rfl⟩

end Store
end FriendLedger
