import FriendLedger.Proofs.Friends.SelfEdges
import FriendLedger.Proofs.Friends.Statuses

/-! Relationships under requests. A request between two users is decided by the two
edges between them. When it goes through, it changes what each of the two sees of the
other, and nobody's status besides. -/

namespace FriendLedger

set_option autoImplicit false

namespace Request

/-- What a request that goes through does to the edges and to the statuses: both are
left alone except for the edge of the acting user and the two users of the request. -/
structure Changes (r : Request) (s t : Store) : Prop where
  keyed : t.Keyed
  before : r.edge ∈ s.heldEdges ↔ r.adds = false
  edges : ∀ e, e ∈ t.heldEdges ↔ if e = r.edge then r.adds = true else e ∈ s.heldEdges
  ledger : t.deals = s.deals ∧ t.spendings = s.spendings ∧ t.recorded = s.recorded
  acting : Friends.statusesOf t r.subject [r.other] = .ok [(r.other, r.outcome)]
  facing : Friends.statusesOf t r.other [r.subject] = .ok [(r.subject, r.outcome.mirror)]
  others : ∀ user candidates, (user = r.subject → r.other ∉ candidates) →
    (user = r.other → r.subject ∉ candidates) →
      Friends.statusesOf t user candidates = Friends.statusesOf s user candidates

variable {r : Request} {s : Store}

section Success
variable (ho : s.Orderly) (h : r.refusal? s = none)
include ho h

theorem decide_mem_changed : decide (r.edge ∈ (r.changed s).heldEdges) = r.adds ∧
    decide (r.edge.reverse ∈ (r.changed s).heldEdges) = decide (r.edge.reverse ∈ s.heldEdges) := by
  have hne : r.edge.reverse ≠ r.edge := fun he =>
    subject_ne_other h ho.noSelfEdges (congrArg Edge.target he)
  constructor
  · rw [Bool.eq_iff_iff, decide_eq_true_iff, mem_heldEdges_changed, if_pos rfl]
  · rw [decide_eq_decide, mem_heldEdges_changed, if_neg hne]

theorem statusIn_subject :
    Friends.statusIn (r.changed s).heldEdges r.subject r.other = r.outcome := by
  obtain ⟨hedge, hreverse⟩ := decide_mem_changed ho h
  rw [(edges_of_refusal?_eq_none h).2, ← hreverse, ← hedge, Friends.statusIn,
    if_neg (subject_ne_other h ho.noSelfEdges).symm]
  rfl

theorem statusIn_other :
    Friends.statusIn (r.changed s).heldEdges r.other r.subject = r.outcome.mirror := by
  obtain ⟨hedge, hreverse⟩ := decide_mem_changed ho h
  rw [(edges_of_refusal?_eq_none h).2, Status.mirror_ofEdges, ← hreverse, ← hedge,
    Friends.statusIn, if_neg (subject_ne_other h ho.noSelfEdges)]
  rfl

theorem changes_changed : r.Changes s (r.changed s) := by
  have hk := keyed_changed ho.toKeyed h
  refine ⟨hk, (edges_of_refusal?_eq_none h).1, fun e => mem_heldEdges_changed, ?_, ?_, ?_, ?_⟩
  · rw [changed]
    split <;> exact ⟨rfl, rfl, rfl⟩
  · rw [Friends.statusesOf_eq hk.toComplete, ← statusIn_subject ho h]
    rfl
  · rw [Friends.statusesOf_eq hk.toComplete, ← statusIn_other ho h]
    rfl
  · intro user candidates hacting hfacing
    rw [Friends.statusesOf_eq hk.toComplete, Friends.statusesOf_eq ho.toComplete]
    congr 1
    apply List.map_congr_left
    intro v hv
    have hmem : v ∈ candidates := (Roster.mem_ofList_iff v candidates).mp hv
    have hout : (⟨user, v⟩ : Edge) ≠ r.edge := by
      rintro he
      cases he
      exact hacting rfl hmem
    have hin : (⟨v, user⟩ : Edge) ≠ r.edge := by
      rintro he
      cases he
      exact hfacing rfl hmem
    rw [Friends.statusIn_congr]
    · rw [mem_heldEdges_changed, if_neg hout]
    · rw [mem_heldEdges_changed, if_neg hin]

end Success
end Request

namespace Friends

/-- The edges between the users of a request decide on it. One that is refused leaves
everything as it was; one that goes through changes the relationship of the two users
alone. Nothing that is done through requests, the ledger and journals leads to an edge
from a user to himself. -/
theorem requests_follow_edges {b : Book} (ho : b.store.Orderly) :
    (∀ (r : Request) (j : Journal),
      match r.refusal? b.store with
      | some f => r.run j b = (.error f, j, b)
      | none => r.run j b = (.ok (), j.record r.recorded, { b with store := r.changed b.store }) ∧
          r.Changes b.store (r.changed b.store)) ∧
    ∀ (handles : List (String × Operation)) (steps : List (Amount × Session.Step)),
      (∀ x ∈ steps, x.2.isControlled = true) →
        ((Session.mk b [] handles).after steps).book.store.Orderly := by
  constructor
  · intro r j
    cases h : r.refusal? b.store with
    | some f => exact Request.run_of_refusal? ho.toComplete h
    | none => exact ⟨Request.run_of_refusal?_eq_none ho.toKeyed h, Request.changes_changed ho h⟩
  · intro handles steps hsteps
    have hs : (Session.mk b [] handles).Orderly := ⟨ho, fun _ => List.forall_mem_nil _⟩
    exact (hs.after hsteps).store

theorem orderly_fresh : Book.fresh.store.Orderly where
  edges := rfl
  deals := rfl
  spendings := rfl
  nodup_edges := List.nodup_nil
  nodup_deals := List.nodup_nil
  nodup_spendings := List.nodup_nil
  refers := fun _ hp => absurd hp List.not_mem_nil
  noSelfEdges := fun _ he => absurd he List.not_mem_nil

/-- Alice and bob become friends, bob leaves alice, and then all of it is undone. -/
def friendship : List (Amount × Session.Step) :=
  [(1, .request (.send "alice" "bob") (some "j")), (2, .request (.accept "alice" "bob") (some "j")),
    (3, .request (.unfriend "bob" "alice") (some "j")), (4, .journalRollback "j")]

theorem friendship_follows_edges :
    Book.fresh.store.Orderly ∧ (∀ x ∈ friendship, x.2.isControlled = true) ∧
      (Request.send "alice" "bob").Changes .fresh ((Request.send "alice" "bob").changed .fresh) ∧
      ((Session.mk .fresh [] []).after friendship).book.store.Orderly := by
  obtain ⟨hrequests, hruns⟩ := requests_follow_edges orderly_fresh
  have hsteps : ∀ x ∈ friendship, x.2.isControlled = true := by decide
  exact ⟨orderly_fresh, hsteps, (hrequests (.send "alice" "bob") .empty).2, hruns [] _ hsteps⟩

/-- A request does change the status of the acting user for the other one. -/
theorem send_changes_other_side :
    Book.fresh.store.Orderly ∧
      ((Request.send "alice" "bob").run .empty .fresh).1 = .ok () ∧
      statusesOf Book.fresh.store "bob" ["alice"] = .ok [("alice", .none)] ∧
      statusesOf ((Request.send "alice" "bob").run .empty .fresh).2.2.store "bob" ["alice"] =
        .ok [("alice", .requestedOfMe)] :=
  ⟨orderly_fresh, by decide +kernel, by decide +kernel, by decide +kernel⟩

end Friends
end FriendLedger
