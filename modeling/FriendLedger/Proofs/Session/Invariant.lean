import FriendLedger.Proofs.Session.Recoverable

/-! Invariants of the engine. A property of stores that operations and their reversals keep
is kept by every step of a session, as long as each operation that is held or recorded
fits to it; only rows written by hand and changes of the schema can break it. -/

namespace FriendLedger

set_option autoImplicit false

namespace Operation

/-- An operation as it is built. A scripted step does not tell what was done with it. -/
def IsUnused (op : Operation) : Prop := op.isScripted = true ∨ op.isPerformed = false

theorem IsNew.isUnused {op : Operation} (h : op.IsNew) : op.IsUnused := .inr h.2

end Operation

namespace Session

/-- A property of stores, and what operations need for it, that calls keep when they succeed,
whichever tables are there. -/
structure Stable (Q : Store → Prop) (R : Operation → Prop) : Prop where
  unused {op : Operation} : op.IsUnused → R op
  perform {b b' : Book} {op op' : Operation} {out : Output} :
    Q b.store → R op → op.perform b = (.ok out, op', b') → Q b'.store ∧ R op'
  reverse {b b' : Book} {op op' : Operation} :
    Q b.store → R op → op.reverse b = (.ok (), op', b') → Q b'.store ∧ R op'

/-- A property of complete stores, and what operations need for it, kept together. -/
structure Invariant (Q : Store → Prop) (R : Operation → Prop) : Prop where
  complete {s : Store} : Q s → s.Complete
  unused {op : Operation} : op.IsUnused → R op
  effect {b b' : Book} {op op' : Operation} {out : Output} :
    Q b.store → R op → Operation.Effect b op out op' b' → Q b'.store ∧ R op'
  reversal {b b' : Book} {op op' : Operation} :
    Q b.store → R op → Operation.Reversal b op op' b' → Q b'.store ∧ R op'

/-- The store has the property, and every operation fits to it. -/
structure Satisfies (s : Session) (Q : Store → Prop) (R : Operation → Prop) : Prop where
  store : Q s.book.store
  handles : ∀ name op, s.handles.lookup name = some op → R op
  journals : ∀ name, ∀ op ∈ (s.journal name).performed, R op

/-- What the engine does. Operations that are taken in hand are built for it. -/
def Step.IsEngine : Step → Prop
  | .hold _ op => op.IsUnused
  | .insertEdge _ | .insertDeal _ | .insertSpending _ | .dropTable _ | .migrate _ => False
  | _ => True

variable {Q : Store → Prop} {R : Operation → Prop}

theorem Invariant.stable (hI : Invariant Q R) : Stable Q R where
  unused := hI.unused
  perform hb hop h := hI.effect hb hop (Operation.effect_of_perform (hI.complete hb) h)
  reverse hb hop h := hI.reversal hb hop (Operation.reversal_of_reverse (hI.complete hb) h)

namespace Stable
variable (hI : Stable Q R)
include hI

theorem attempt {j j' : Journal} {b b' : Book} {ok : Bool} (h : Journal.Attempt R j b ok j' b')
    (hb : Q b.store) (hj : ∀ op ∈ j.performed, R op) :
    Q b'.store ∧ ∀ op ∈ j'.performed, R op := by
  cases h with
  | refused n => exact ⟨hb, hj⟩
  | performed hp hop =>
    obtain ⟨hb', hop'⟩ := hI.perform hb hp hop
    exact ⟨hb', List.forall_mem_cons.mpr ⟨hop', hj⟩⟩

/-- A rollback keeps the property even when it stops halfway. -/
theorem reverseAll {b : Book} {ops : List Operation} (hb : Q b.store) (hops : ∀ op ∈ ops, R op) :
    Q (Journal.reverseAll ops b).2.store := by
  induction ops generalizing b with
  | nil => exact hb
  | cons op ops ih =>
    obtain ⟨hop, hrest⟩ := List.forall_mem_cons.mp hops
    cases hrev : op.reverse b with
    | mk answer rest =>
      obtain ⟨op', b'⟩ := rest
      cases answer with
      | ok u =>
        simp only [Journal.reverseAll, hrev]
        exact ih (hI.reverse hb hop hrev).1 hrest
      | error f =>
        obtain ⟨-, rfl⟩ := Operation.reverse_error hrev
        simp only [Journal.reverseAll, hrev]
        exact hb

end Stable

namespace Satisfies
variable {s : Session} {now : Amount} (hI : Stable Q R) (h : s.Satisfies Q R)
include h

theorem setBook {b : Book} (hb : Q b.store) : (s.setBook b).Satisfies Q R :=
  ⟨hb, h.handles, h.journals⟩

theorem setJournal (name : String) {j : Journal} (hj : ∀ op ∈ j.performed, R op) :
    (s.setJournal name j).Satisfies Q R where
  store := h.store
  handles := h.handles
  journals other := by
    rw [journal_setJournal]
    split
    · exact hj
    · exact h.journals other

theorem removeJournal (name : String) : (s.removeJournal name).Satisfies Q R where
  store := h.store
  handles := h.handles
  journals other := by
    rw [journal_removeJournal]
    split
    · exact List.forall_mem_nil _
    · exact h.journals other

theorem setHandle (name : String) {op : Operation} (hop : R op) :
    (s.setHandle name op).Satisfies Q R where
  store := h.store
  handles other op' hop' := by
    rw [lookup_setHandle] at hop'
    split at hop'
    · cases hop'
      exact hop
    · exact h.handles other op' hop'
  journals := h.journals

theorem removeHandle (name : String) : (s.removeHandle name).Satisfies Q R where
  store := h.store
  handles other op hop := by
    rw [lookup_removeHandle] at hop
    split at hop
    · cases hop
    · exact h.handles other op hop
  journals := h.journals

include hI

theorem withJournal {α : Type} {call : Journal → Book → Except Stop α × Journal × Book}
    {reply : α → Reply}
    (hcall : ∀ j, ∃ ok, Journal.Attempt R j s.book ok (call j s.book).2.1 (call j s.book).2.2)
    (name : Option String) : (s.withJournal name call reply).2.Satisfies Q R := by
  cases name with
  | none =>
    obtain ⟨ok, hattempt⟩ := hcall .empty
    exact h.setBook (hI.attempt hattempt h.store (List.forall_mem_nil _)).1
  | some name =>
    obtain ⟨ok, hattempt⟩ := hcall (s.journal name)
    obtain ⟨hb, hj⟩ := hI.attempt hattempt h.store (h.journals name)
    exact (h.setJournal name hj).setBook hb

/-- A call of a journal that nobody else sees. -/
theorem attempt_empty {b : Book} {j : Journal} {ok : Bool}
    (hcall : Journal.Attempt R .empty s.book ok j b) : (s.setBook b).Satisfies Q R :=
  h.setBook (hI.attempt hcall h.store (List.forall_mem_nil _)).1

theorem command (c : Command) : (s.setBook (c.run now s.book).2).Satisfies Q R := by
  cases c with
  | request r =>
    have hrun : Journal.Attempt R .empty s.book _ _ _ :=
      Journal.attempt_request fun op hop =>
        hI.unused (Request.isNew_of_resolve (r := r) hop).isUnused
    have hsatisfies := h.attempt_empty hI hrun
    simp only [Command.run, Command.runRequest]
    split <;> rename_i heq <;> rwa [heq] at hsatisfies
  | add actor draft =>
    have hadd := @Journal.attempt_add R .empty s.book actor (draft.expense now) (hI.unused (.inr rfl))
    exact h.attempt_empty hI hadd
  | remove actor id =>
    have hremove := @Journal.attempt_remove R .empty s.book actor id (hI.unused (.inr rfl))
    exact h.attempt_empty hI hremove
  | _ => exact h

theorem step_perform (handle : String) : (s.step now (.perform handle)).2.Satisfies Q R := by
  simp only [Session.step, withHandle]
  cases hlookup : s.handles.lookup handle with
  | none => exact h
  | some op =>
    have hop := h.handles handle op hlookup
    cases hperf : op.perform s.book with
    | mk answer rest =>
      obtain ⟨op', b⟩ := rest
      simp only [hperf]
      cases answer with
      | ok out =>
        obtain ⟨hb, hop'⟩ := hI.perform h.store hop hperf
        exact (h.setHandle handle hop').setBook hb
      | error f =>
        obtain ⟨rfl, rfl⟩ := Operation.perform_error hperf
        exact (h.setHandle handle hop).setBook h.store

theorem step_reverse (handle : String) : (s.step now (.reverse handle)).2.Satisfies Q R := by
  simp only [Session.step, withHandle]
  cases hlookup : s.handles.lookup handle with
  | none => exact h
  | some op =>
    have hop := h.handles handle op hlookup
    cases hrev : op.reverse s.book with
    | mk answer rest =>
      obtain ⟨op', b⟩ := rest
      simp only [hrev]
      cases answer with
      | ok u =>
        obtain ⟨hb, hop'⟩ := hI.reverse h.store hop hrev
        exact (h.setHandle handle hop').setBook hb
      | error f =>
        obtain ⟨rfl, rfl⟩ := Operation.reverse_error hrev
        exact (h.setHandle handle hop).setBook h.store

theorem step {step : Step} (hstep : step.IsEngine) : (s.step now step).2.Satisfies Q R := by
  by_cases hread : step.isRead = true
  · rw [step_of_isRead hread]
    exact h
  · cases step with
    | request r journal =>
      exact h.withJournal hI (fun j => ⟨_, Journal.attempt_request fun _ hop =>
        hI.unused (Request.isNew_of_resolve hop).isUnused⟩) journal
    | addExpense actor e journal =>
      exact h.withJournal hI (fun j => ⟨_, Journal.attempt_add (hI.unused (.inr rfl))⟩) journal
    | removeExpense actor id journal =>
      exact h.withJournal hI (fun j => ⟨_, Journal.attempt_remove (hI.unused (.inr rfl))⟩) journal
    | hold handle op => exact h.setHandle handle (hI.unused hstep)
    | perform handle => exact h.step_perform hI handle
    | reverse handle => exact h.step_reverse hI handle
    | journalPerform handle journal =>
      simp only [Session.step, withHandle]
      split
      · rename_i op hop
        exact (h.removeHandle handle).withJournal hI
          (fun j => ⟨_, Journal.attempt_operation (h.handles handle op hop)⟩) journal
      · exact h
    | journalStep op journal =>
      exact h.withJournal hI (fun j => ⟨_, @Journal.attempt_perform R j s.book _ _ _ .step .number op
        rfl (hI.unused (.inl rfl))⟩) journal
    | journalCommit name => exact h.removeJournal name
    | journalDrop name => exact h.removeJournal name
    | journalRollback name =>
      exact (h.removeJournal name).setBook (hI.reverseAll h.store (h.journals name))
    | setIds next => exact h.setBook h.store
    | commandLine args =>
      simp only [Session.step]
      split
      · exact h
      · exact h.command hI _
    | insertEdge e => cases hstep
    | insertDeal d => cases hstep
    | insertSpending p => cases hstep
    | dropTable table => cases hstep
    | migrate direction => cases hstep
    | _ => exact absurd rfl hread

theorem after {steps : List (Amount × Step)} (hsteps : ∀ x ∈ steps, x.2.IsEngine) :
    (s.after steps).Satisfies Q R :=
  after_induction (·.Satisfies Q R) Step.IsEngine (fun h hstep => h.step hI hstep) h hsteps

end Satisfies

/-- A property of a store holds after every run of the engine from there on. -/
theorem Stable.satisfies_after (hI : Stable Q R) {b : Book} (hb : Q b.store)
    {steps : List (Amount × Step)} (hsteps : ∀ x ∈ steps, x.2.IsEngine) :
    ((Session.mk b [] []).after steps).Satisfies Q R := by
  have hs : (Session.mk b [] []).Satisfies Q R := by
    refine ⟨hb, ?_, ?_⟩
    · intro name op hop
      cases hop
    · intro name
      exact List.forall_mem_nil _
  exact hs.after hI hsteps

theorem Invariant.satisfies_after (hI : Invariant Q R) (hfresh : Q .fresh)
    {steps : List (Amount × Step)} (hsteps : ∀ x ∈ steps, x.2.IsEngine) :
    (Session.fresh.after steps).Satisfies Q R :=
  hI.stable.satisfies_after (b := .fresh) hfresh hsteps

end Session
end FriendLedger
