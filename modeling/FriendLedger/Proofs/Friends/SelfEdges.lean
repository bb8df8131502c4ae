import FriendLedger.Proofs.Friends.Requests
import FriendLedger.Proofs.Operation.Undo
import FriendLedger.Proofs.Session.Entries

/-! Requests never lead to an edge from a user to himself, whatever is undone
meanwhile. What a rollback puts back was there before, so the invariant has to hold
of the rows that journals keep as well. -/

namespace FriendLedger

set_option autoImplicit false

/-- The keys are kept, and every edge has two users. -/
structure Store.Orderly (s : Store) : Prop extends Keyed s where
  noSelfEdges : s.NoSelfEdges

namespace Operation

/-- Performing it does not put in an edge from a user to himself. -/
def AddsProperly : Operation → Prop
  | .addEdge ⟨e, false⟩ => e.sender ≠ e.target
  | _ => True

/-- Undoing it does not put one back, and stores spendings with their own deal. -/
def RestoresProperly : Operation → Prop
  | .removeEdge ⟨e, some true⟩ => e.sender ≠ e.target
  | .removeExpense ⟨_, some rows⟩ => rows.Coherent
  | _ => True

variable {b b' : Book} {op op' : Operation}

theorem Effect.orderly {out : Output} (ho : b.store.Orderly) (hop : op.AddsProperly)
    (h : Effect b op out op' b') : b'.store.Orderly ∧ op'.RestoresProperly := by
  have hk := h.keyed ho.toKeyed
  cases h with
  | @addEdge e he =>
    refine ⟨⟨hk, ?_⟩, trivial⟩
    intro e' he'
    rcases List.mem_append.mp he' with hheld | hnew
    · exact ho.noSelfEdges e' hheld
    · rw [List.mem_singleton.mp hnew]
      exact hop
  | @removeEdge e =>
    refine ⟨⟨hk, fun e' he' => ho.noSelfEdges e' (List.mem_filter.mp he').1⟩, ?_⟩
    by_cases he : e ∈ b.store.heldEdges
    · simpa [RestoresProperly, he] using ho.noSelfEdges e he
    · simp [RestoresProperly, he]
  | addExpense => exact ⟨⟨hk, ho.noSelfEdges⟩, trivial⟩
  | removeExpense hd => exact ⟨⟨hk, ho.noSelfEdges⟩, Store.coherent_spendingsAt hd⟩
  | step => exact ⟨⟨hk, ho.noSelfEdges⟩, trivial⟩

theorem Reversal.orderly (ho : b.store.Orderly) (hop : op.RestoresProperly)
    (h : Reversal b op op' b') : b'.store.Orderly := by
  cases h with
  | addEdge =>
    exact ⟨ho.withoutEdge _, fun e' he' => ho.noSelfEdges e' (List.mem_filter.mp he').1⟩
  | removeEdge_missed => exact ho
  | @removeEdge e =>
    refine ⟨ho.restoreEdge e, ?_⟩
    intro e' he'
    rcases Store.mem_heldEdges_restoreEdge.mp he' with hheld | rfl
    · exact ho.noSelfEdges e' hheld
    · exact hop
  | addExpense => exact ⟨ho.withoutExpense _, ho.noSelfEdges⟩
  | @removeExpense id rows s hs =>
    obtain ⟨hadmits, rfl⟩ := (ho.insertExpense_eq_ok_iff hop).mp hs
    exact ⟨ho.withExpense hop hadmits, ho.noSelfEdges⟩
  | step => exact ho

end Operation

namespace Journal

/-- Nothing that the journal has recorded restores a self edge. -/
def Orderly (j : Journal) : Prop := ∀ op ∈ j.performed, op.RestoresProperly

variable {j j' : Journal} {b b' : Book}

theorem Advance.orderly (h : Advance Operation.AddsProperly j b j' b') (ho : b.store.Orderly)
    (hj : j.Orderly) : b'.store.Orderly ∧ j'.Orderly := by
  cases h with
  | refused hs =>
    rw [hs]
    exact ⟨ho, hj⟩
  | performed hp hop =>
    obtain ⟨ho', hop'⟩ := (Operation.effect_of_perform ho.toComplete hop).orderly ho hp
    exact ⟨ho', List.forall_mem_cons.mpr ⟨hop', hj⟩⟩

/-- A rollback keeps the store orderly even when it stops halfway. -/
theorem orderly_reverseAll {ops : List Operation} (ho : b.store.Orderly)
    (hops : ∀ op ∈ ops, op.RestoresProperly) : (reverseAll ops b).2.store.Orderly := by
  induction ops generalizing b with
  | nil => exact ho
  | cons op ops ih =>
    obtain ⟨hop, hrest⟩ := List.forall_mem_cons.mp hops
    cases hrev : op.reverse b with
    | mk answer rest =>
      obtain ⟨op', b'⟩ := rest
      cases answer with
      | ok u =>
        simp only [reverseAll, hrev]
        exact ih ((Operation.reversal_of_reverse ho.toComplete hrev).orderly ho hop) hrest
      | error f =>
        obtain ⟨-, rfl⟩ := Operation.reverse_error hrev
        simp only [reverseAll, hrev]
        exact ho

end Journal

/-- A request that goes through is one between two users. -/
theorem Request.addsProperly_of_resolve {r : Request} {s : Store} {op : Operation}
    (ho : s.Orderly) (h : r.resolve s = .ok op) : op.AddsProperly := by
  rw [resolve_eq ho.toComplete] at h
  cases href : r.refusal? s with
  | some f =>
    rw [href] at h
    cases h
  | none =>
    rw [href] at h
    cases h
    have hne := subject_ne_other href ho.noSelfEdges
    cases r <;> first | exact hne | trivial

namespace Session

structure Orderly (s : Session) : Prop where
  store : s.book.store.Orderly
  journals : ∀ name, (s.journal name).Orderly

/-- Steps that only ask, calls of a controller and what is done with journals. -/
def Step.isControlled : Step → Bool
  | .request _ _ | .addExpense _ _ _ | .removeExpense _ _ _ | .journalCommit _ | .journalDrop _
  | .journalRollback _ | .commandLine _ => true
  | step => step.isRead

namespace Orderly
variable {s : Session} {now : Amount} (h : s.Orderly)
include h

theorem setBook {b : Book} (hb : b.store.Orderly) : (s.setBook b).Orderly := ⟨hb, h.journals⟩

theorem setJournal (name : String) {j : Journal} (hj : j.Orderly) :
    (s.setJournal name j).Orderly where
  store := h.store
  journals other := by
    rw [journal_setJournal]
    split
    · exact hj
    · exact h.journals other

theorem removeJournal (name : String) : (s.removeJournal name).Orderly where
  store := h.store
  journals other := by
    rw [journal_removeJournal]
    split
    · simp [Journal.Orderly, Journal.empty]
    · exact h.journals other

theorem withJournal {α : Type} {call : Journal → Book → Except Stop α × Journal × Book}
    {reply : α → Reply} (hcall : ∀ j, Journal.Advance Operation.AddsProperly j s.book
      (call j s.book).2.1 (call j s.book).2.2) (name : Option String) :
    (s.withJournal name call reply).2.Orderly := by
  cases name with
  | none =>
    obtain ⟨ho, -⟩ := (hcall .empty).orderly h.store (List.forall_mem_nil _)
    exact h.setBook ho
  | some name =>
    obtain ⟨ho, hj⟩ := (hcall (s.journal name)).orderly h.store (h.journals name)
    exact (h.setJournal name hj).setBook ho

theorem advance_request (r : Request) (j : Journal) : Journal.Advance Operation.AddsProperly j
    s.book (r.run j s.book).2.1 (r.run j s.book).2.2 :=
  Journal.advance_request fun _ hop => Request.addsProperly_of_resolve h.store hop

theorem command (c : Command) : (c.run now s.book).2.store.Orderly := by
  cases c with
  | request r =>
    obtain ⟨ho, -⟩ := (h.advance_request r .empty).orderly h.store (List.forall_mem_nil _)
    simp only [Command.run, Command.runRequest]
    split <;> rename_i heq <;> rwa [heq] at ho
  | add actor draft =>
    change (Ledger.add actor (draft.expense now) .empty s.book).2.2.store.Orderly
    exact ((Journal.advance_add trivial).orderly h.store (List.forall_mem_nil _)).1
  | remove actor id =>
    change (Ledger.remove actor id .empty s.book).2.2.store.Orderly
    exact ((Journal.advance_remove trivial).orderly h.store (List.forall_mem_nil _)).1
  | _ => exact h.store

theorem step {step : Step} (hstep : step.isControlled = true) : (s.step now step).2.Orderly := by
  by_cases hread : step.isRead = true
  · rw [step_of_isRead hread]
    exact h
  · cases step with
    | request r journal => exact h.withJournal (fun j => h.advance_request r j) journal
    | addExpense actor e journal =>
      exact h.withJournal (fun j => Journal.advance_add trivial) journal
    | removeExpense actor id journal =>
      exact h.withJournal (fun j => Journal.advance_remove trivial) journal
    | journalCommit name => exact h.removeJournal name
    | journalDrop name => exact h.removeJournal name
    | journalRollback name =>
      exact (h.removeJournal name).setBook (Journal.orderly_reverseAll h.store (h.journals name))
    | commandLine args =>
      simp only [Session.step]
      split
      · exact h
      · exact h.setBook (h.command _)
    | _ => exact absurd hstep hread

theorem after {steps : List (Amount × Step)} (hsteps : ∀ x ∈ steps, x.2.isControlled = true) :
    (s.after steps).Orderly :=
  after_induction Orderly (·.isControlled = true) (fun h hstep => h.step hstep) h hsteps

end Orderly
end Session
end FriendLedger
