import FriendLedger.Proofs.Journal.Advance

/-! Requests as steps of a state machine of two users. The edges between the two decide
whether a request is refused, and for what; a request that succeeds changes one row
and with it the status that each of the two has for the other. -/

namespace FriendLedger

set_option autoImplicit false

def Store.NoSelfEdges (s : Store) : Prop := ∀ e ∈ s.heldEdges, e.sender ≠ e.target

/-- The status that the other side sees. -/
def Status.mirror : Status → Status
  | .requestedByMe => .requestedOfMe
  | .requestedOfMe => .requestedByMe
  | status => status

theorem Status.mirror_ofEdges (outgoing incoming : Bool) :
    (ofEdges outgoing incoming).mirror = ofEdges incoming outgoing := by
  cases outgoing <;> cases incoming <;> rfl

namespace Request

def refusal? (s : Store) : Request → Option Failure
  | .send a b =>
    if a = b then some (.invalidRequest "cannot send a friend request to yourself")
    else if ⟨a, b⟩ ∈ s.heldEdges then some (.alreadySent (a ++ " -> " ++ b))
    else if ⟨b, a⟩ ∈ s.heldEdges then some (.hasIncomingRequest (b ++ " -> " ++ a))
    else none
  | .accept a b | .reject a b =>
    if ⟨a, b⟩ ∈ s.heldEdges ∧ ⟨b, a⟩ ∉ s.heldEdges then none
    else some (.noSuchRequest (a ++ " -> " ++ b))
  | .unfriend a b =>
    if ⟨a, b⟩ ∈ s.heldEdges ∧ ⟨b, a⟩ ∈ s.heldEdges then none
    else some (.notAFriend (a ++ " and " ++ b))

/-- The row that a request changes: the edge of the acting user. -/
def edge (r : Request) : Edge := ⟨r.subject, r.other⟩

/-- Whether the row is added. Otherwise it is removed. -/
def adds : Request → Bool
  | .send _ _ | .accept _ _ => true
  | .reject _ _ | .unfriend _ _ => false

def operation (r : Request) : Operation :=
  if r.adds then .addEdge ⟨r.edge, false⟩ else .removeEdge ⟨r.edge, none⟩

def recorded (r : Request) : Operation :=
  if r.adds then .addEdge ⟨r.edge, true⟩ else .removeEdge ⟨r.edge, some true⟩

def changed (r : Request) (s : Store) : Store :=
  if r.adds then s.withEdge r.edge else s.withoutEdge r.edge

/-- The status that the acting user sees after a request. -/
def outcome : Request → Status
  | .send _ _ => .requestedByMe
  | .accept _ _ => .mutual
  | .reject _ _ => .none
  | .unfriend _ _ => .requestedOfMe

variable {r : Request} {s : Store} {op : Operation}

theorem operation_of_resolve (h : r.resolve s = .ok op) : op = r.operation := by
  cases r with
  | send sender target =>
    simp only [resolve] at h
    split at h
    · cases h
    · obtain ⟨⟨outgoing, incoming⟩, -, h⟩ := bind_eq_ok_iff.mp h
      cases outgoing <;> cases incoming <;> cases h
      rfl
  | accept requester accepter =>
    obtain ⟨pending, -, h⟩ := bind_eq_ok_iff.mp h
    cases pending <;> cases h
    rfl
  | reject sender target =>
    obtain ⟨pending, -, h⟩ := bind_eq_ok_iff.mp h
    cases pending <;> cases h
    rfl
  | unfriend user friend =>
    obtain ⟨⟨outgoing, incoming⟩, -, h⟩ := bind_eq_ok_iff.mp h
    cases outgoing <;> cases incoming <;> cases h
    rfl

theorem isScripted_operation : r.operation.isScripted = false := by
  cases r <;> rfl

section Complete
variable (hc : s.Complete)
include hc

theorem edgePair_eq (a b : String) : Friends.edgePair s a b =
    .ok (decide (⟨a, b⟩ ∈ s.heldEdges), decide (⟨b, a⟩ ∈ s.heldEdges)) := by
  rw [Friends.edgePair, hc.edgeRows_eq]
  rfl

theorem hasPendingRequest_eq (a b : String) : Friends.hasPendingRequest s a b =
    .ok (decide (⟨a, b⟩ ∈ s.heldEdges ∧ ⟨b, a⟩ ∉ s.heldEdges)) := by
  rw [Friends.hasPendingRequest, edgePair_eq hc]
  simp

theorem resolve_eq (r : Request) : r.resolve s =
    match r.refusal? s with
    | some f => .error f
    | none => .ok r.operation := by
  cases r with
  | send a b =>
    simp only [resolve, refusal?, edgePair_eq hc, ok_bind]
    by_cases hab : a = b
    · simp [hab]
    · by_cases hout : ⟨a, b⟩ ∈ s.heldEdges
      · simp [hab, hout]
      · by_cases hin : ⟨b, a⟩ ∈ s.heldEdges
        · simp [hab, hout, hin]
        · simp [hab, hout, hin, operation, adds, edge, subject, other, AddEdge.new]
  | accept a b =>
    simp only [resolve, refusal?, hasPendingRequest_eq hc, ok_bind]
    by_cases hpending : ⟨a, b⟩ ∈ s.heldEdges ∧ ⟨b, a⟩ ∉ s.heldEdges
    · simp [hpending, operation, adds, edge, subject, other, AddEdge.new]
    · simp only [hpending, decide_false, if_false]
      rfl
  | reject a b =>
    simp only [resolve, refusal?, hasPendingRequest_eq hc, ok_bind]
    by_cases hpending : ⟨a, b⟩ ∈ s.heldEdges ∧ ⟨b, a⟩ ∉ s.heldEdges
    · simp [hpending, operation, adds, edge, subject, other, RemoveEdge.new]
    · simp only [hpending, decide_false, if_false]
      rfl
  | unfriend a b =>
    simp only [resolve, refusal?, edgePair_eq hc, ok_bind]
    by_cases hboth : ⟨a, b⟩ ∈ s.heldEdges ∧ ⟨b, a⟩ ∈ s.heldEdges
    · simp [hboth, operation, adds, edge, subject, other, RemoveEdge.new]
    · rw [if_neg hboth, if_neg (by simpa using hboth)]
      rfl

end Complete

/-! ### Success -/

section Success
variable (h : r.refusal? s = none)
include h

/-- Which edges there are between the users of a request that is not refused. -/
theorem edges_of_refusal?_eq_none : (r.edge ∈ s.heldEdges ↔ r.adds = false) ∧
    r.outcome = Status.ofEdges r.adds (decide (r.edge.reverse ∈ s.heldEdges)) := by
  cases r with
  | send a b =>
    simp only [refusal?] at h
    split at h
    · cases h
    · split at h
      · cases h
      · rename_i hout
        split at h
        · cases h
        · rename_i hin
          simp [edge, Edge.reverse, subject, other, adds, outcome, Status.ofEdges, hout, hin]
  | accept a b =>
    simp only [refusal?, ite_eq_left_iff, reduceCtorEq, imp_false, not_not] at h
    simp [edge, Edge.reverse, subject, other, adds, outcome, Status.ofEdges, h.1, h.2]
  | reject a b =>
    simp only [refusal?, ite_eq_left_iff, reduceCtorEq, imp_false, not_not] at h
    simp [edge, Edge.reverse, subject, other, adds, outcome, Status.ofEdges, h.1, h.2]
  | unfriend a b =>
    simp only [refusal?, ite_eq_left_iff, reduceCtorEq, imp_false, not_not] at h
    simp [edge, Edge.reverse, subject, other, adds, outcome, Status.ofEdges, h.1, h.2]

theorem subject_ne_other (hl : s.NoSelfEdges) : r.subject ≠ r.other := by
  obtain ⟨hedge, -⟩ := edges_of_refusal?_eq_none h
  cases r with
  | send a b =>
    rintro (rfl : a = b)
    simp [refusal?] at h
  | accept a b =>
    rintro (rfl : b = a)
    simp [refusal?] at h
  | reject a b => exact hl _ (hedge.mpr rfl)
  | unfriend a b => exact hl _ (hedge.mpr rfl)

end Success

theorem mem_heldEdges_changed {e : Edge} : e ∈ (r.changed s).heldEdges ↔
    if e = r.edge then r.adds = true else e ∈ s.heldEdges := by
  by_cases he : e = r.edge <;> cases hadds : r.adds <;> simp [changed, hadds, he]

theorem keyed_changed (hk : s.Keyed) (h : r.refusal? s = none) : (r.changed s).Keyed := by
  obtain ⟨hedge, -⟩ := edges_of_refusal?_eq_none h
  cases hadds : r.adds with
  | true => simpa [changed, hadds] using hk.withEdge (e := r.edge) (by simp [hedge, hadds])
  | false => simpa [changed, hadds] using hk.withoutEdge r.edge

section Run
variable {b : Book} {j : Journal}

theorem run_of_refusal? (hc : b.store.Complete) {f : Failure} (h : r.refusal? b.store = some f) :
    r.run j b = (.error f, j, b) := by
  rw [run, resolve_eq hc, h]

theorem run_of_refusal?_eq_none (hk : b.store.Keyed) (h : r.refusal? b.store = none) :
    r.run j b = (.ok (), j.record r.recorded, { b with store := r.changed b.store }) := by
  obtain ⟨hedge, -⟩ := edges_of_refusal?_eq_none h
  have hperf : r.operation.perform b =
      (.ok .done, r.recorded, { b with store := r.changed b.store }) := by
    cases hadds : r.adds with
    | true =>
      have he : r.edge ∉ b.store.heldEdges := by simp [hedge, hadds]
      have heff := Operation.perform_of_effect hk.toComplete (.addEdge he)
      simpa [operation, recorded, changed, hadds] using heff
    | false =>
      have he : r.edge ∈ b.store.heldEdges := hedge.mpr hadds
      have heff := Operation.perform_of_effect hk.toComplete (.removeEdge (e := r.edge))
      simpa [operation, recorded, changed, hadds, he] using heff
  have hreversible : Reversible.perform r.operation b =
      (.ok Output.done, r.recorded, { b with store := r.changed b.store }) := hperf
  rw [run, resolve_eq hk.toComplete, h]
  simp only [Journal.perform, hreversible, id]

end Run
end Request

end FriendLedger
