import FriendLedger.Proofs.Friends.Relationships

/-! Two requests that the same store allows. As long as they concern different pairs of
users, neither makes a difference to the other. Between the same two users the one that
goes through leaves nothing for the other one to do, whose write may go through all the
same once it has been decided. -/

namespace FriendLedger

set_option autoImplicit false

theorem Status.eq_of_ofEdges {outgoing incoming incoming' : Bool}
    (h : ofEdges outgoing incoming = ofEdges outgoing incoming') : incoming = incoming' := by
  cases outgoing <;> cases incoming <;> cases incoming' <;> first | rfl | cases h

namespace Request
variable {r r' : Request} {s t : Store}

/-- The requests concern the same two users. -/
def SamePair (r r' : Request) : Prop := r'.edge = r.edge ∨ r'.edge = r.edge.reverse

theorem SamePair.symm (h : r.SamePair r') : r'.SamePair r := by
  rcases h with hedge | hreverse
  · exact .inl hedge.symm
  · exact .inr (by rw [hreverse]; rfl)

/-- The edges between its two users are all that decides on a request. -/
theorem refusal?_congr (hedge : r.edge ∈ s.heldEdges ↔ r.edge ∈ t.heldEdges)
    (hreverse : r.edge.reverse ∈ s.heldEdges ↔ r.edge.reverse ∈ t.heldEdges) :
    r.refusal? s = r.refusal? t := by
  cases r <;>
    simp only [edge, Edge.reverse, subject, other] at hedge hreverse <;>
    simp only [refusal?, hedge, hreverse]

/-- A request is known from the edge that it changes and from what comes of it. -/
theorem eq_of_edge_of_outcome (hedge : r'.edge = r.edge) (houtcome : r'.outcome = r.outcome) :
    r' = r := by
  cases r <;> cases r' <;> cases houtcome <;> cases hedge <;> rfl

section Allowed
variable (h : r.refusal? s = none) (h' : r'.refusal? s = none)
include h'

theorem refusal?_changed_of_not_samePair (hpair : ¬ r.SamePair r') :
    r'.refusal? (r.changed s) = none := by
  have hedge : r'.edge ≠ r.edge := fun heq => hpair (.inl heq)
  have hreverse : r'.edge.reverse ≠ r.edge := fun heq => hpair (.inr (by rw [← heq]; rfl))
  rw [← h']
  apply refusal?_congr
  · rw [mem_heldEdges_changed, if_neg hedge]
  · rw [mem_heldEdges_changed, if_neg hreverse]

include h

/-- A store does not allow two different requests that change the same edge. -/
theorem eq_of_edge_eq (hedge : r'.edge = r.edge) : r' = r := by
  obtain ⟨hheld, houtcome⟩ := edges_of_refusal?_eq_none h
  obtain ⟨hheld', houtcome'⟩ := edges_of_refusal?_eq_none h'
  rw [hedge] at hheld' houtcome'
  have hadds : r'.adds = r.adds := by
    rw [← Bool.not_inj_iff, Bool.eq_iff_iff, Bool.not_eq_true', Bool.not_eq_true', ← hheld', hheld]
  apply eq_of_edge_of_outcome hedge
  rw [houtcome', houtcome, hadds]

/-- Once one of them has gone through, the other one is refused. -/
theorem refusal?_changed_of_samePair (hpair : r.SamePair r') :
    ∃ f, r'.refusal? (r.changed s) = some f := by
  rw [← Option.ne_none_iff_exists']
  intro hnone
  obtain ⟨hheld, -⟩ := edges_of_refusal?_eq_none h
  obtain ⟨hafter, houtcome⟩ := edges_of_refusal?_eq_none hnone
  have hturned : r.edge ∈ (r.changed s).heldEdges ↔ r.edge ∉ s.heldEdges := by
    rw [mem_heldEdges_changed, if_pos rfl, hheld, Bool.not_eq_false]
  rcases hpair with hedge | hreverse
  · cases eq_of_edge_eq h h' hedge
    exact iff_not_self (hheld.trans hafter.symm |>.trans hturned)
  · have hback : r'.edge.reverse = r.edge := by rw [hreverse]; rfl
    obtain ⟨-, houtcome'⟩ := edges_of_refusal?_eq_none h'
    have hsame := decide_eq_decide.mp (Status.eq_of_ofEdges (houtcome'.symm.trans houtcome))
    rw [hback] at hsame
    exact iff_not_self (hsame.trans hturned)

end Allowed

/-! ### Writes that come late -/

section Write
variable {b : Book}

theorem perform_operation_of_taken (hc : b.store.Complete) (hadds : r.adds = true)
    (hedge : r.edge ∈ b.store.heldEdges) :
    r.operation.perform b = (.error (.alreadySent r.edge.text), r.operation, b) := by
  simp [operation, hadds, Operation.perform, Operation.lift, AddEdge.perform, hc.insertEdge_eq,
    hedge, Except.map]

theorem perform_operation_of_free (hc : b.store.Complete)
    (hfree : r.adds = true → r.edge ∉ b.store.heldEdges) :
    ∃ op, r.operation.perform b = (.ok .done, op, { b with store := r.changed b.store }) := by
  cases hadds : r.adds with
  | true =>
    have heff := Operation.perform_of_effect hc (.addEdge (hfree hadds))
    simp only [operation, changed, hadds, if_true]
    exact ⟨_, heff⟩
  | false =>
    have heff := Operation.perform_of_effect hc (.removeEdge (e := r.edge))
    simp only [operation, changed, hadds, Bool.false_eq_true, if_false]
    exact ⟨_, heff⟩

end Write

/-- The later one of two requests finds its edge there only if it is the earlier one
again, and adds an edge. -/
theorem taken_iff (h : r.refusal? s = none) (h' : r'.refusal? s = none) :
    r'.adds = true ∧ r'.edge ∈ (r.changed s).heldEdges ↔ r' = r ∧ r'.adds = true := by
  constructor
  · rintro ⟨hadds, hmem⟩
    by_cases hedge : r'.edge = r.edge
    · exact ⟨eq_of_edge_eq h h' hedge, hadds⟩
    · obtain ⟨hheld, -⟩ := edges_of_refusal?_eq_none h'
      rw [mem_heldEdges_changed, if_neg hedge, hheld, hadds] at hmem
      cases hmem
  · rintro ⟨rfl, hadds⟩
    rw [mem_heldEdges_changed, if_pos rfl]
    exact ⟨hadds, hadds⟩

/-- Of the requests that add an edge, the sending ones are told that it was sent. -/
theorem eq_send_of_alreadySent {e : String} (hrefused : r.refusal? s = some (.alreadySent e)) :
    ∃ a b, r = .send a b := by
  cases r with
  | send a b => exact ⟨a, b, rfl⟩
  | _ =>
    simp only [refusal?] at hrefused
    split at hrefused <;> cases hrefused

end Request
end FriendLedger
