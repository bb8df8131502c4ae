/-! Rosters: lists of names in strictly ascending order, hence without
repetition. A roster is determined by the names it holds. -/

namespace FriendLedger.Roster

set_option autoImplicit false

def insert (x : String) : List String → List String
  | [] => [x]
  | y :: ys => if x < y then x :: y :: ys else if y < x then y :: insert x ys else y :: ys

def ofList (xs : List String) : List String := xs.foldr insert []

theorem mem_insert_iff (x z : String) (ys : List String) : z ∈ insert x ys ↔ z = x ∨ z ∈ ys := by
  induction ys with
  | nil => simp [insert]
  | cons y ys ih =>
    unfold insert
    split
    · simp
    · split
      · simp only [List.mem_cons, ih]
        exact ⟨fun h => h.elim (.inr ∘ .inl) (fun h => h.imp_right .inr),
          fun h => h.elim (.inr ∘ .inl) (fun h => h.imp_right .inr)⟩
      · rename_i hge hle
        have hxy : x = y := String.le_antisymm hle hge
        simp [hxy]

theorem pairwise_insert (x : String) {ys : List String} (h : ys.Pairwise (· < ·)) :
    (insert x ys).Pairwise (· < ·) := by
  induction ys with
  | nil => simp [insert]
  | cons y ys ih =>
    obtain ⟨hy, hys⟩ := List.pairwise_cons.mp h
    unfold insert
    split
    · rename_i hlt
      refine List.pairwise_cons.mpr ⟨?_, h⟩
      intro z hz
      rcases List.mem_cons.mp hz with rfl | hz
      · exact hlt
      · exact String.lt_trans hlt (hy z hz)
    · split
      · rename_i hgt
        refine List.pairwise_cons.mpr ⟨?_, ih hys⟩
        intro z hz
        rcases (mem_insert_iff x z ys).mp hz with rfl | hz
        · exact hgt
        · exact hy z hz
      · exact h

theorem mem_ofList_iff (z : String) (xs : List String) : z ∈ ofList xs ↔ z ∈ xs := by
  induction xs with
  | nil => simp [ofList]
  | cons x xs ih =>
    rw [ofList, List.foldr_cons, mem_insert_iff, List.mem_cons]
    exact or_congr_right ih

theorem pairwise_ofList (xs : List String) : (ofList xs).Pairwise (· < ·) := by
  induction xs with
  | nil => exact .nil
  | cons x xs ih => exact pairwise_insert x ih

theorem nodup_ofList (xs : List String) : (ofList xs).Nodup := by
  apply (pairwise_ofList xs).imp
  rintro a _ hlt rfl
  exact String.lt_irrefl a hlt

end FriendLedger.Roster
