import FriendLedger.Proofs.Journal.PartialRollback
import FriendLedger.Proofs.Ledger.Refinement

/-! Sessions in which everything that is recorded can be undone. As long as nobody else
writes to the store and the ids last, every key is either stored or kept by one removal,
never both, so the rows that a removal keeps always fit in again; all other reversals
succeed on every store. -/

namespace FriendLedger

set_option autoImplicit false

namespace Operation

/-- An operation on the store, as it is built. -/
def IsNew (op : Operation) : Prop := op.isScripted = false ∧ op.isPerformed = false

variable {b b' : Book} {op op' : Operation} {out : Output} {kept : Key → Nat}

/-- An operation that is not performed keeps nothing. -/
theorem keeps_of_not_performed (h : op.isPerformed = false) :
    op.KeepsExpense ∧ ∀ k, op.count k = 0 := by
  cases op with
  | removeExpense op =>
    obtain ⟨id, taken⟩ := op
    cases taken <;> cases h
    exact ⟨trivial, fun _ => rfl⟩
  | _ => exact ⟨trivial, fun _ => rfl⟩

theorem refusal?_of_not_scripted (h : op.isScripted = false) : op.refusal? = none := by
  cases op with
  | step op => cases h
  | _ => rfl

theorem Effect.refusal?_eq (h : Effect b op out op' b') : op'.refusal? = op.refusal? := by
  cases h <;> rfl

theorem Reversal.keepsExpense (h : Reversal b op op' b') : op'.KeepsExpense := by
  cases h <;> trivial

theorem reverse_ok (hc : b.store.Complete) (hs : b.Sound fun k => op.count k + kept k)
    (hb : ¬ b.Exhausted) (hop : op.KeepsExpense) (hr : op.refusal? = none)
    (hp : op.isPerformed = true) : ∃ op' b', op.reverse b = (.ok (), op', b') := by
  cases op with
  | addEdge op =>
    obtain ⟨e, performed⟩ := op
    cases performed <;> cases hp
    exact ⟨_, _, reverse_of_reversal hc .addEdge⟩
  | removeEdge op =>
    obtain ⟨e, removed⟩ := op
    rcases removed with _ | _ | _
    · cases hp
    · exact ⟨_, _, reverse_of_reversal hc .removeEdge_missed⟩
    · exact ⟨_, _, reverse_of_reversal hc .removeEdge⟩
  | addExpense op =>
    obtain ⟨e, inserted⟩ := op
    cases inserted with
    | none => cases hp
    | some id => exact ⟨_, _, reverse_of_reversal hc .addExpense⟩
  | removeExpense op =>
    obtain ⟨id, taken⟩ := op
    cases taken with
    | none => cases hp
    | some rows =>
      have hins := (hc.insertExpense_eq_ok_iff hop.1).mpr ⟨hs.admits hb, rfl⟩
      exact ⟨_, _, reverse_of_reversal hc (.removeExpense hins)⟩
  | step op => exact ⟨_, _, reverse_of_reversal hc (.step hr)⟩

/-- A recorded operation that nothing but a repeated id can keep from being undone. -/
structure Revocable (op : Operation) : Prop where
  keeps : op.KeepsExpense
  refusal : op.refusal? = none
  performed : op.isPerformed = true

theorem Effect.revocable (h : Effect b op out op' b') (hr : op.refusal? = none) : op'.Revocable :=
  ⟨h.keepsExpense, h.refusal?_eq.trans hr, h.isPerformed_eq⟩

end Operation

namespace Journal
variable {P : Operation → Prop} {j j' : Journal} {b b' : Book} {ok : Bool} {kept : Key → Nat}
  {ops : List Operation}

def Revocable (j : Journal) : Prop := ∀ op ∈ j.performed, op.Revocable

/-- A call through a journal, beside which the rows counted by `rest` are kept. -/
theorem Attempt.sound (rest : Key → Nat) (h : Attempt P j b ok j' b') (hk : b.store.Keyed)
    (hs : b.Sound fun k => j.count k + rest k)
    (hP : ∀ op, P op → op.refusal? = none ∧ b.Sound fun k => op.count k + (j.count k + rest k))
    (hj : j.Revocable) :
    b'.store.Keyed ∧ (b'.Sound fun k => j'.count k + rest k) ∧ j'.Revocable := by
  cases h with
  | refused n => exact ⟨hk, hs.mono (Nat.le_add_right _ _) fun _ => Nat.le_refl _, hj⟩
  | performed hp hop =>
    obtain ⟨hr, hsound⟩ := hP _ hp
    have heff := Operation.effect_of_perform hk.toComplete hop
    refine ⟨heff.keyed hk, (heff.sound hk hsound).weaken fun k => ?_,
      List.forall_mem_cons.mpr ⟨heff.revocable hr, hj⟩⟩
    simp [count, record, Nat.add_assoc]

theorem reverseAll_sound (hk : b.store.Keyed)
    (hs : b.Sound fun k => (ops.map (·.count k)).sum + kept k) (hops : ∀ op ∈ ops, op.Revocable) :
    (reverseAll ops b).2.store.Keyed ∧ (reverseAll ops b).2.Sound kept ∧
      (¬ b.Exhausted → (reverseAll ops b).1 = .ok ()) := by
  induction ops generalizing b with
  | nil => exact ⟨hk, hs.weaken fun k => by simp, fun _ => rfl⟩
  | cons op ops ih =>
    obtain ⟨hop, hrest⟩ := List.forall_mem_cons.mp hops
    have hfirst : b.Sound fun k => op.count k + ((ops.map (·.count k)).sum + kept k) :=
      hs.weaken fun k => by simp [Nat.add_assoc]
    cases hrev : op.reverse b with
    | mk answer r =>
      obtain ⟨op', b₁⟩ := r
      simp only [reverseAll, hrev]
      cases answer with
      | ok u =>
        have hreversal := Operation.reversal_of_reverse hk.toComplete hrev
        obtain ⟨hnext, hsound⟩ := hreversal.sound hk.toComplete hop.keeps hfirst
        obtain ⟨hk', hs', hok⟩ := ih (hreversal.keyed hk)
          (hsound.weaken fun k => by omega) hrest
        refine ⟨hk', hs', fun hb => hok ?_⟩
        rwa [Book.Exhausted, hnext]
      | error f =>
        obtain ⟨-, rfl⟩ := Operation.reverse_error hrev
        refine ⟨hk, hfirst.weaken fun k => by omega, fun hb => ?_⟩
        obtain ⟨_, _, hok⟩ := Operation.reverse_ok hk.toComplete hfirst hb hop.keeps hop.refusal
          hop.performed
        rw [hok] at hrev
        cases hrev

end Journal
theorem Request.isNew_of_resolve {r : Request} {s : Store} {op : Operation}
    (h : r.resolve s = .ok op) : op.IsNew := by
  rw [operation_of_resolve h]
  cases r <;> exact ⟨rfl, rfl⟩

namespace Session

/-- Steps of clients that leave the store to the operations: nothing else writes to it, ids
are not set back, operations are held as they are built, and scripted steps do not fail. -/
def Step.Permitted (s : Session) : Step → Prop
  | .insertEdge _ | .insertDeal _ | .insertSpending _ | .dropTable _ | .migrate _ => False
  | .setIds next => s.book.nextId ≤ next
  | .hold _ op => op.IsNew
  | .journalStep op _ => op.performFailure = none ∧ op.reverseFailure = none
  | _ => True

def AllPermitted : Session → List (Amount × Step) → Prop
  | _, [] => True
  | s, (now, step) :: steps => step.Permitted s ∧ AllPermitted (s.step now step).2 steps

/-- Everything that is recorded can be undone, as long as no id is repeated. -/
structure Recoverable (s : Session) : Prop where
  keyed : s.book.store.Keyed
  sound : s.book.Sound s.kept
  handles : ∀ name op, s.handles.lookup name = some op → op.KeepsExpense ∧ op.isScripted = false
  journals : ∀ name, (s.journal name).Revocable

namespace Recoverable
variable {s : Session} (h : s.Recoverable) {b : Book}
include h

theorem setBook (hk : b.store.Keyed) (hs : b.Sound s.kept) : (s.setBook b).Recoverable :=
  ⟨hk, hs, h.handles, h.journals⟩

theorem removeHandle (name : String) : (s.removeHandle name).Recoverable where
  keyed := h.keyed
  sound := h.sound.weaken fun k => kept_removeHandle_le name k
  handles other op hop := by
    rw [lookup_removeHandle] at hop
    split at hop
    · cases hop
    · exact h.handles other op hop
  journals := h.journals

/-- An operation in hand is put down under a name. -/
theorem setHandle {name : String} {op : Operation} (hk : b.store.Keyed)
    (hs : b.Sound fun k => op.count k + (s.removeHandle name).kept k) (hop : op.KeepsExpense)
    (hscript : op.isScripted = false) : ((s.setHandle name op).setBook b).Recoverable where
  keyed := hk
  sound := hs.weaken fun k => Nat.le_of_eq (kept_setHandle (s := s) name k op)
  handles other op' hop' := by
    have hlookup : ((s.setHandle name op).setBook b).handles.lookup other = _ := lookup_setHandle op
    rw [hlookup] at hop'
    split at hop'
    · cases hop'
      exact ⟨hop, hscript⟩
    · exact h.handles other op' hop'
  journals := h.journals

theorem setJournal {name : String} {j : Journal} (hk : b.store.Keyed)
    (hs : b.Sound fun k => j.count k + (s.removeJournal name).kept k) (hj : j.Revocable) :
    ((s.setJournal name j).setBook b).Recoverable where
  keyed := hk
  sound := hs.weaken fun k => Nat.le_of_eq (kept_setJournal (s := s) name k j)
  handles := h.handles
  journals other := by
    have hjournal : ((s.setJournal name j).setBook b).journal other = _ := journal_setJournal j
    rw [hjournal]
    split
    · exact hj
    · exact h.journals other

theorem removeJournal (name : String) (hk : b.store.Keyed) (hs : b.Sound (s.removeJournal name).kept) :
    ((s.removeJournal name).setBook b).Recoverable where
  keyed := hk
  sound := hs
  handles := h.handles
  journals other := by
    have hjournal : ((s.removeJournal name).setBook b).journal other = _ := journal_removeJournal
    rw [hjournal]
    split
    · exact List.forall_mem_nil _
    · exact h.journals other

section Calls
variable {P : Operation → Prop}
  (hP : ∀ op, P op → op.refusal? = none ∧ s.book.Sound fun k => op.count k + s.kept k)
include hP

/-- A call with a journal of its own, which is gone afterwards. -/
theorem attempt_empty {j : Journal} {ok : Bool} (hcall : Journal.Attempt P .empty s.book ok j b) :
    (s.setBook b).Recoverable := by
  have hempty (k : Key) : Journal.empty.count k + s.kept k = s.kept k := by
    simp [Journal.count, Journal.empty]
  obtain ⟨hk, hs, -⟩ := hcall.sound s.kept h.keyed
    (h.sound.weaken fun k => Nat.le_of_eq (hempty k))
    (fun op hop => ⟨(hP op hop).1, (hP op hop).2.weaken fun k => by rw [hempty]⟩)
    (List.forall_mem_nil _)
  exact h.setBook hk (hs.weaken fun k => Nat.le_add_left _ _)

theorem withJournal {α : Type} {call : Journal → Book → Except Stop α × Journal × Book}
    {reply : α → Reply}
    (hcall : ∀ j, ∃ ok, Journal.Attempt P j s.book ok (call j s.book).2.1 (call j s.book).2.2)
    (name : Option String) : (s.withJournal name call reply).2.Recoverable := by
  cases name with
  | none =>
    obtain ⟨ok, hattempt⟩ := hcall .empty
    exact h.attempt_empty hP hattempt
  | some name =>
    obtain ⟨ok, hattempt⟩ := hcall (s.journal name)
    have hle (k : Key) := add_kept_removeJournal_le (s := s) name k
    obtain ⟨hk, hs, hj⟩ := hattempt.sound (s.removeJournal name).kept h.keyed
      (h.sound.weaken hle)
      (fun op hop => ⟨(hP op hop).1, (hP op hop).2.weaken fun k => Nat.add_le_add_left (hle k) _⟩)
      (h.journals name)
    exact h.setJournal hk hs hj

end Calls
theorem of_isNew {op : Operation} (hop : op.IsNew) :
    op.refusal? = none ∧ s.book.Sound fun k => op.count k + s.kept k := by
  refine ⟨Operation.refusal?_of_not_scripted hop.1, h.sound.weaken fun k => ?_⟩
  rw [(Operation.keeps_of_not_performed hop.2).2 k, Nat.zero_add]

theorem command (c : Command) (now : Amount) : (s.setBook (c.run now s.book).2).Recoverable := by
  cases c with
  | request r =>
    have hrun : Journal.Attempt Operation.IsNew .empty s.book _ _ _ :=
      Journal.attempt_request fun op hop => Request.isNew_of_resolve (r := r) hop
    have hrecoverable := h.attempt_empty (fun _ hop => h.of_isNew hop) hrun
    simp only [Command.run, Command.runRequest]
    split <;> rename_i heq <;> rwa [heq] at hrecoverable
  | add actor draft =>
    have hadd := @Journal.attempt_add Operation.IsNew .empty s.book actor (draft.expense now) ⟨rfl, rfl⟩
    exact h.attempt_empty (fun _ hop => h.of_isNew hop) hadd
  | remove actor id =>
    have hremove := @Journal.attempt_remove Operation.IsNew .empty s.book actor id ⟨rfl, rfl⟩
    exact h.attempt_empty (fun _ hop => h.of_isNew hop) hremove
  | _ => exact h

/-- An operation that is performed or undone in hand, and put down again. -/
theorem sound_hand {name : String} {op : Operation} (hop : s.handles.lookup name = some op) :
    s.book.Sound fun k => op.count k + (s.removeHandle name).kept k :=
  h.sound.weaken fun k => add_kept_removeHandle_le k hop

theorem step_perform (now : Amount) (handle : String) :
    (s.step now (.perform handle)).2.Recoverable := by
  simp only [Session.step, withHandle]
  cases hlookup : s.handles.lookup handle with
  | none => exact h
  | some op =>
    obtain ⟨hkeeps, hscript⟩ := h.handles handle op hlookup
    have hhand := h.sound_hand hlookup
    cases hperf : op.perform s.book with
    | mk answer r =>
      obtain ⟨op', b⟩ := r
      simp only [hperf]
      cases answer with
      | ok out =>
        have heff := Operation.effect_of_perform h.keyed.toComplete hperf
        exact h.setHandle (heff.keyed h.keyed) (heff.sound h.keyed hhand) heff.keepsExpense
          (heff.isScripted_eq.trans hscript)
      | error f =>
        obtain ⟨rfl, rfl⟩ := Operation.perform_error hperf
        exact h.setHandle h.keyed (hhand.mono (Nat.le_add_right _ _) fun _ => Nat.le_refl _) hkeeps
          hscript

theorem step_reverse (now : Amount) (handle : String) :
    (s.step now (.reverse handle)).2.Recoverable := by
  simp only [Session.step, withHandle]
  cases hlookup : s.handles.lookup handle with
  | none => exact h
  | some op =>
    obtain ⟨hkeeps, hscript⟩ := h.handles handle op hlookup
    have hhand := h.sound_hand hlookup
    cases hrev : op.reverse s.book with
    | mk answer r =>
      obtain ⟨op', b⟩ := r
      simp only [hrev]
      cases answer with
      | ok out =>
        have hreversal := Operation.reversal_of_reverse h.keyed.toComplete hrev
        exact h.setHandle (hreversal.keyed h.keyed)
          (hreversal.sound h.keyed.toComplete hkeeps hhand).2 hreversal.keepsExpense
          (hreversal.isScripted_eq.trans hscript)
      | error f =>
        obtain ⟨rfl, rfl⟩ := Operation.reverse_error hrev
        exact h.setHandle h.keyed hhand hkeeps hscript

theorem step_journalPerform (now : Amount) (handle : String) (journal : Option String) :
    (s.step now (.journalPerform handle journal)).2.Recoverable := by
  simp only [Session.step, withHandle]
  cases hlookup : s.handles.lookup handle with
  | none => exact h
  | some op =>
    obtain ⟨-, hscript⟩ := h.handles handle op hlookup
    refine (h.removeHandle handle).withJournal (P := (· = op)) ?_
      (fun j => ⟨_, @Journal.attempt_operation (· = op) j (s.removeHandle handle).book op rfl⟩) journal
    rintro _ rfl
    exact ⟨Operation.refusal?_of_not_scripted hscript, h.sound_hand hlookup⟩

theorem sound_journal (name : String) : s.book.Sound fun k =>
    ((s.journal name).performed.map (·.count k)).sum + (s.removeJournal name).kept k :=
  h.sound.weaken fun k => add_kept_removeJournal_le name k

theorem step_rollback (now : Amount) (name : String) :
    (s.step now (.journalRollback name)).2.Recoverable := by
  obtain ⟨hk, hs, -⟩ := Journal.reverseAll_sound h.keyed (h.sound_journal name) (h.journals name)
  exact h.removeJournal name hk hs

theorem step {now : Amount} {step : Step} (hstep : step.Permitted s) :
    (s.step now step).2.Recoverable := by
  by_cases hread : step.isRead = true
  · rw [step_of_isRead hread]
    exact h
  · have hforget (name : String) : s.book.Sound (s.removeJournal name).kept :=
      (h.sound_journal name).weaken fun k => Nat.le_add_left _ _
    cases step with
    | request r journal =>
      exact h.withJournal (fun _ hop => h.of_isNew hop)
        (fun j => ⟨_, Journal.attempt_request fun _ hop => Request.isNew_of_resolve hop⟩) journal
    | addExpense actor e journal =>
      exact h.withJournal (fun _ hop => h.of_isNew hop)
        (fun j => ⟨_, Journal.attempt_add ⟨rfl, rfl⟩⟩) journal
    | removeExpense actor id journal =>
      exact h.withJournal (fun _ hop => h.of_isNew hop)
        (fun j => ⟨_, Journal.attempt_remove ⟨rfl, rfl⟩⟩) journal
    | hold handle op =>
      obtain ⟨hkeeps, hzero⟩ := Operation.keeps_of_not_performed hstep.2
      have hs : s.book.Sound fun k => op.count k + (s.removeHandle handle).kept k :=
        h.sound.weaken fun k => by
          rw [hzero k, Nat.zero_add]
          exact kept_removeHandle_le handle k
      exact h.setHandle h.keyed hs hkeeps hstep.1
    | perform handle => exact h.step_perform now handle
    | reverse handle => exact h.step_reverse now handle
    | journalPerform handle journal => exact h.step_journalPerform now handle journal
    | journalStep op journal =>
      refine h.withJournal (P := (· = .step op)) ?_
        (fun j => ⟨_, @Journal.attempt_perform (· = .step op) j s.book _ _ _ .step .number op rfl rfl⟩)
        journal
      rintro _ rfl
      exact ⟨hstep.2, h.sound.weaken fun k => Nat.le_of_eq (Nat.zero_add _)⟩
    | journalCommit name => exact h.removeJournal name h.keyed (hforget name)
    | journalDrop name => exact h.removeJournal name h.keyed (hforget name)
    | journalRollback name => exact h.step_rollback now name
    | setIds next => exact h.setBook h.keyed (h.sound.mono hstep fun _ => Nat.le_refl _)
    | commandLine args =>
      simp only [Session.step]
      split
      · exact h
      · exact h.command _ now
    | insertEdge e => cases hstep
    | insertDeal d => cases hstep
    | insertSpending p => cases hstep
    | dropTable table => cases hstep
    | migrate direction => cases hstep
    | _ => exact absurd rfl hread

theorem after {steps : List (Amount × Step)} (hsteps : AllPermitted s steps) :
    (s.after steps).Recoverable := by
  induction steps generalizing s with
  | nil => exact h
  | cons x steps ih => exact ih (h.step hsteps.1) hsteps.2

end Recoverable

theorem recoverable_fresh : Session.fresh.Recoverable where
  keyed := Store.keyed_fresh
  sound := by
    intro _ k
    cases k <;> simp [Session.fresh, Book.fresh, Store.fresh, Store.count, Store.heldDeals,
      Store.heldSpendings, kept]
  handles name op hop := by cases hop
  journals _ := List.forall_mem_nil _

end Session
end FriendLedger
