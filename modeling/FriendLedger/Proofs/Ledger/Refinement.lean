import FriendLedger.Proofs.Journal.Advance
import FriendLedger.Proofs.Ledger.Representation

/-! Sessions that work on the ledger alone follow a register. Every step of the
session is a step of the register with the same answer, and at every moment the
store shows the entries. -/

namespace FriendLedger

set_option autoImplicit false

def Journal.count (j : Journal) (k : Key) : Nat := (j.performed.map (·.count k)).sum

namespace Session

/-- How often the key occurs among the rows that operations of the session keep. -/
def kept (s : Session) (k : Key) : Nat :=
  (s.handles.map fun h => h.2.count k).sum + (s.journals.map fun j => j.2.count k).sum

/-- What is held and recorded in the session stands for the postings of the register. -/
structure Lists (s : Session) (r : Register) : Prop where
  handles : ∀ name, Option.Rel Operation.Stands (s.handles.lookup name) (r.handles name)
  journals : ∀ name, List.Forall₂ Operation.Stands (s.journal name).performed (r.journals name)

structure Tracks (s : Session) (r : Register) : Prop extends Lists s r where
  book : s.book.Carries s.kept r

section Kept
variable {s : Session} (name : String) (k : Key)

theorem kept_setHandle (op : Operation) :
    (s.setHandle name op).kept k = op.count k + (s.removeHandle name).kept k := by
  simp [kept, setHandle, removeHandle, Nat.add_assoc]

theorem kept_removeHandle_le : (s.removeHandle name).kept k ≤ s.kept k := by
  have := lookup_add_sum_without_le s.handles name fun op => op.count k
  simp only [kept, removeHandle]
  omega

theorem add_kept_removeHandle_le {name : String} {op : Operation} (h : s.handles.lookup name = some op) :
    op.count k + (s.removeHandle name).kept k ≤ s.kept k := by
  have := lookup_add_sum_without_le s.handles name fun op => op.count k
  rw [h, Option.map_some, Option.getD_some] at this
  simp only [kept, removeHandle]
  omega

theorem kept_setJournal (j : Journal) :
    (s.setJournal name j).kept k = j.count k + (s.removeJournal name).kept k := by
  simp [kept, setJournal, removeJournal, Nat.add_left_comm]

theorem add_kept_removeJournal_le :
    (s.journal name).count k + (s.removeJournal name).kept k ≤ s.kept k := by
  have := lookup_add_sum_without_le s.journals name fun j => j.count k
  have hcount : (s.journal name).count k =
      ((s.journals.lookup name).map fun j => j.count k).getD 0 := by
    rw [journal]
    cases s.journals.lookup name <;> rfl
  simp only [kept, removeJournal, hcount]
  omega

end Kept

namespace Lists
variable {s : Session} {r : Register}

theorem setHandle (h : s.Lists r) (name : String) {op : Operation} {p : Posting} (hop : op.Stands p) :
    (s.setHandle name op).Lists (r.hold name (some p)) where
  handles other := by
    rw [lookup_setHandle, Register.handles_hold]
    split
    · exact .some hop
    · exact h.handles other
  journals := h.journals

theorem removeHandle (h : s.Lists r) (name : String) :
    (s.removeHandle name).Lists (r.hold name none) where
  handles other := by
    rw [lookup_removeHandle, Register.handles_hold]
    split
    · exact .none
    · exact h.handles other
  journals := h.journals

theorem setJournal (h : s.Lists r) (name : String) {j : Journal} {ps : List Posting}
    (hj : List.Forall₂ Operation.Stands j.performed ps) :
    (s.setJournal name j).Lists (r.setJournal name ps) where
  handles := h.handles
  journals other := by
    rw [journal_setJournal, Register.journals_setJournal]
    split
    · exact hj
    · exact h.journals other

theorem removeJournal (h : s.Lists r) (name : String) :
    (s.removeJournal name).Lists (r.setJournal name []) where
  handles := h.handles
  journals other := by
    rw [journal_removeJournal, Register.journals_setJournal]
    split
    · exact .nil
    · exact h.journals other

theorem congr {r' : Register} (h : s.Lists r) (hr : r'.journals = r.journals ∧ r'.handles = r.handles) :
    s.Lists r' where
  handles := by
    rw [hr.2]
    exact h.handles
  journals := by
    rw [hr.1]
    exact h.journals

theorem tracks {b : Book} (h : s.Lists r) (hb : b.Carries s.kept r) : (s.setBook b).Tracks r where
  handles := h.handles
  journals := h.journals
  book := hb

/-- An operation in hand and its posting are put down under a name. -/
theorem tracks_setHandle {b : Book} {name : String} {op : Operation} {p : Posting} (h : s.Lists r)
    (hop : op.Stands p) (hb : b.Carries (fun k => op.count k + (s.removeHandle name).kept k) r) :
    ((s.setHandle name op).setBook b).Tracks (r.hold name (some p)) := by
  have hb' : b.Carries (s.setHandle name op).kept r :=
    hb.mono fun k => Nat.le_of_eq (kept_setHandle name k op)
  exact (h.setHandle name hop).tracks (hb'.congr rfl rfl)

theorem tracks_setHandle_self {b : Book} {name : String} {op : Operation} {p : Posting}
    (h : s.Lists r) (hr : r.handles name = some p) (hop : op.Stands p)
    (hb : b.Carries (fun k => op.count k + (s.removeHandle name).kept k) r) :
    ((s.setHandle name op).setBook b).Tracks r := by
  have ht := h.tracks_setHandle hop hb
  rwa [Register.hold, ← hr, Function.update_eq_self] at ht

/-- An operation is found under a name exactly when a posting is. -/
theorem handle_cases (h : s.Lists r) (name : String) :
    (s.handles.lookup name = none ∧ r.handles name = none) ∨
      ∃ op p, s.handles.lookup name = some op ∧ r.handles name = some p ∧ op.Stands p := by
  cases hs : s.handles.lookup name with
  | none =>
    have hrel := h.handles name
    rw [hs] at hrel
    cases hr : r.handles name with
    | none => exact .inl ⟨rfl, rfl⟩
    | some p =>
      rw [hr] at hrel
      cases hrel
  | some op =>
    have hrel := h.handles name
    rw [hs] at hrel
    cases hr : r.handles name with
    | none =>
      rw [hr] at hrel
      cases hrel
    | some p =>
      rw [hr] at hrel
      cases hrel with
      | some hop => exact .inr ⟨op, p, rfl, rfl, hop⟩

end Lists

section Calls
variable {s : Session} {r : Register} {α : Type} {reply : α → Reply} {journal : Option String}
  {call : Journal → Book → Except Stop α × Journal × Book} {b : Book}

/-- A call that has performed an operation records it in the journal named. -/
theorem withJournal_ok {a : α} {op : Operation} {p : Posting} (hl : s.Lists r) (hop : op.Stands p)
    (hb : b.Carries (fun k => op.count k + s.kept k) r)
    (hcall : ∀ j, call j s.book = (.ok a, j.record op, b)) :
    ∃ s', s.withJournal journal call reply = (.ok (reply a), s') ∧ s'.book = b ∧
      s'.Tracks (r.note journal p) := by
  cases journal with
  | none =>
    have hb' : b.Carries s.kept r := hb.mono fun k => Nat.le_add_left _ _
    exact ⟨s.setBook b, by simp only [withJournal, hcall]; rfl, rfl, hl.tracks hb'⟩
  | some name =>
    have hl' : (s.setJournal name ((s.journal name).record op)).Lists (r.note (some name) p) :=
      hl.setJournal name (.cons hop (hl.journals name))
    have hb' : b.Carries (s.setJournal name ((s.journal name).record op)).kept r := by
      refine hb.mono fun k => ?_
      have := add_kept_removeJournal_le (s := s) name k
      rw [kept_setJournal]
      simp only [Journal.count, Journal.record, List.map_cons, List.sum_cons] at this ⊢
      omega
    exact ⟨(s.setJournal name ((s.journal name).record op)).setBook b,
      by simp only [withJournal, hcall]; rfl, rfl, hl'.tracks (hb'.congr rfl rfl)⟩

theorem withJournal_error {e : Stop} (hl : s.Lists r) (hb : b.Carries s.kept r)
    (hcall : ∀ j, call j s.book = (.error e, j, b)) :
    ∃ s', s.withJournal journal call reply = (.error (.stop e), s') ∧ s'.book = b ∧
      s'.Tracks r := by
  cases journal with
  | none =>
    exact ⟨s.setBook b, by simp only [withJournal, hcall]; rfl, rfl, hl.tracks hb⟩
  | some name =>
    have hl' : (s.setJournal name (s.journal name)).Lists (r.setJournal name (r.journals name)) :=
      hl.setJournal name (hl.journals name)
    rw [Register.setJournal, Function.update_eq_self] at hl'
    have hb' : b.Carries (s.setJournal name (s.journal name)).kept r := hb.mono fun k => by
      rw [kept_setJournal]
      exact add_kept_removeJournal_le name k
    exact ⟨(s.setJournal name (s.journal name)).setBook b,
      by simp only [withJournal, hcall]; rfl, rfl, hl'.tracks hb'⟩

end Calls

/-! ### Steps -/

/-- The register can take the step with the answer of the session, and tracks it after. -/
def Tracked (now : Amount) (s : Session) (r : Register) (step : Step) : Prop :=
  ∃ r', r.Takes (s.step now step).2.book.Exhausted step (s.step now step).1 r' ∧
    (s.step now step).2.Tracks r'

section Call
variable {now : Amount} {s s₀ : Session} {r r₀ : Register} {step : Step} {journal : Option String}
  {Op Out : Type} {call : Journal → Book → Except Stop Out × Journal × Book} {reply : Out → Reply}
  (hstep : s.step now step = s₀.withJournal journal call reply) (hl : s₀.Lists r₀)
include hstep hl

theorem tracked_of_refused {e : Stop} (hb : s₀.book.Carries s₀.kept r₀)
    (hcall : ∀ j, call j s₀.book = (.error e, j, s₀.book))
    (htakes : r.Takes s₀.book.Exhausted step (.error (.stop e)) r₀) : Tracked now s r step := by
  obtain ⟨s', hs', hbook, ht⟩ := withJournal_error hl hb hcall
  refine ⟨r₀, ?_, ?_⟩ <;> rw [hstep, hs']
  · rw [hbook]
    exact htakes
  · exact ht

theorem tracked_of_perform [Reversible Op Out] {wrap : Op → Operation} {output : Out → Output}
    {op : Op} {p : Posting} (hop : (wrap op).Stands p)
    (hb : s₀.book.Carries (fun k => (wrap op).count k + s₀.kept k) r₀)
    (hw : (wrap op).perform s₀.book = Operation.lift wrap output (Reversible.perform op s₀.book))
    (hcall : ∀ j, call j s₀.book = orStopped (j.perform wrap op s₀.book))
    (hreply : ∀ a, reply a = replyOf (output a))
    (htakes : ∀ {stale out p' r'}, r₀.Performs stale p (some out) p' r' →
      r.Takes stale step (.ok (replyOf out)) (r'.note journal p'))
    (hfails : ∀ {stale why}, r₀.Performs stale p none p r₀ → r.Takes stale step (.error why) r₀) :
    Tracked now s r step := by
  cases hperf : (wrap op).perform s₀.book with
  | mk answer rest =>
    obtain ⟨op', b⟩ := rest
    cases answer with
    | ok out =>
      obtain ⟨a, rfl, hj⟩ := Journal.perform_of_ok hw hperf
      obtain ⟨p', r', hp, hop', hb'⟩ := hb.performs hop hperf
      have hok (j : Journal) : call j s₀.book = (.ok a, j.record op', b) := by
        rw [hcall, hj]
        rfl
      obtain ⟨s', hs', hbook, ht⟩ := withJournal_ok (hl.congr hp.beside) hop' hb' hok
      refine ⟨r'.note journal p', ?_, ?_⟩ <;> rw [hstep, hs']
      · rw [hbook, hreply]
        exact htakes hp
      · exact ht
    | error f =>
      obtain ⟨hp, rfl, hb'⟩ := hb.performs_none hop hperf
      have herror (j : Journal) : call j s₀.book = (.error (.failure f), j, b) := by
        rw [hcall, Journal.perform_of_error hw hperf]
        rfl
      obtain ⟨s', hs', hbook, ht⟩ :=
        withJournal_error hl (hb'.mono fun k => Nat.le_add_left _ _) herror
      refine ⟨r₀, ?_, ?_⟩ <;> rw [hstep, hs']
      · rw [hbook]
        exact hfails hp
      · exact ht

end Call

namespace Tracks
variable {now : Amount} {s : Session} {r : Register} (h : s.Tracks r)
include h

/-- An operation in hand keeps nothing that the session does not count. -/
theorem carries_hand {op : Operation} (hop : ∀ k, op.count k = 0) :
    s.book.Carries (fun k => op.count k + s.kept k) r :=
  h.book.mono fun k => by rw [hop k, Nat.zero_add]

theorem step_read {step : Step} (hstep : step.isRead = true) : Tracked now s r step := by
  refine ⟨r, .read hstep, ?_⟩
  rw [step_of_isRead hstep]
  exact h

theorem step_add (actor : String) (e : Expense) (journal : Option String) :
    Tracked now s r (.addExpense actor e journal) := by
  have hstep : s.step now (.addExpense actor e journal) =
      s.withJournal journal (Ledger.add actor e) (.answer ∘ .added) := rfl
  cases hinv : e.involves actor with
  | false =>
    have hcall (j : Journal) : Ledger.add actor e j s.book =
        (.error (.failure (.notYourExpense (actor ++ " holds no share of the new expense"))),
          j, s.book) := by
      simp [Ledger.add, hinv]
    exact tracked_of_refused hstep h.toLists h.book hcall (.add_refused (.inl hinv))
  | true =>
    cases hsum : e.isBalanced? with
    | none =>
      have hcall (j : Journal) : Ledger.add actor e j s.book = (.error .overflow, j, s.book) := by
        simp [Ledger.add, hinv, hsum]
      exact tracked_of_refused hstep h.toLists h.book hcall (.add_refused (.inr (.inl hsum)))
    | some balanced =>
      have hb : s.book.Carries
          (fun k => Operation.count (.addExpense (.new e)) k + s.kept k) r :=
        h.carries_hand fun _ => rfl
      have hw : Operation.perform (.addExpense (.new e)) s.book =
          Operation.lift .addExpense .added (Reversible.perform (AddExpense.new e) s.book) := rfl
      have hcall (j : Journal) : Ledger.add actor e j s.book =
          orStopped (j.perform .addExpense (.new e) s.book) := by
        simp [Ledger.add, hinv, hsum, orStopped]
      refine tracked_of_perform hstep h.toLists .adding hb hw hcall (fun _ => rfl) ?_ ?_
      · intro stale out p' r' hp
        exact .add hinv (by rw [hsum]; rfl) hp
      · intro stale why hp
        cases hp with
        | again hperformed => cases hperformed
        | add_stale hstale => exact .add_refused (.inr (.inr hstale))

theorem step_remove (actor : String) (id : Id) (journal : Option String) :
    Tracked now s r (.removeExpense actor id journal) := by
  have hstep : s.step now (.removeExpense actor id journal) = s.withJournal journal
      (fun j b => orStopped (Ledger.remove actor id j b)) (.answer ∘ .removed) := rfl
  have hget := h.book.holds.get_eq actor id
  cases he : r.entries.lookup id with
  | none =>
    have hcall (j : Journal) : orStopped (Ledger.remove actor id j s.book) =
        (.error (.failure (.expenseNotFound id.toText)), j, s.book) := by
      rw [he] at hget
      simp only [Ledger.remove, hget]
      rfl
    refine tracked_of_refused hstep h.toLists h.book hcall (.remove_refused ?_)
    intro e he'
    rw [he] at he'
    cases he'
  | some e =>
    simp only [he] at hget
    cases hinv : e.involves actor with
    | false =>
      have hcall (j : Journal) : orStopped (Ledger.remove actor id j s.book) =
          (.error (.failure (.notYourExpense (actor ++ " holds no share of " ++ id.toText))),
            j, s.book) := by
        simp [Ledger.remove, hget, hinv, orStopped, orStop]
      refine tracked_of_refused hstep h.toLists h.book hcall (.remove_refused ?_)
      intro e' he'
      rw [he] at he'
      cases he'
      exact hinv
    | true =>
      have hb : s.book.Carries
          (fun k => Operation.count (.removeExpense (.new id)) k + s.kept k) r :=
        h.carries_hand fun _ => rfl
      have hw : Operation.perform (.removeExpense (.new id)) s.book = Operation.lift .removeExpense
          .removed (Reversible.perform (RemoveExpense.new id) s.book) := rfl
      have hcall (j : Journal) : orStopped (Ledger.remove actor id j s.book) =
          orStopped (j.perform .removeExpense (.new id) s.book) := by
        simp [Ledger.remove, hget, hinv, Ledger.take]
      refine tracked_of_perform hstep h.toLists .removing hb hw hcall (fun _ => rfl) ?_ ?_
      · intro stale out p' r' hp
        exact .remove he hinv hp
      · intro stale why hp
        cases hp with
        | again hperformed => cases hperformed
        | missing hid => exact absurd (Finmap.mem_of_lookup_eq_some he) hid

theorem step_hold {handle : String} {op : Operation} {p : Posting}
    (hop : Posting.ofNew? op = some p) : Tracked now s r (.hold handle op) := by
  obtain ⟨hstands, hzero⟩ := Operation.stands_of_ofNew? hop
  refine ⟨r.hold handle (some p), .hold hop, h.toLists.tracks_setHandle hstands ?_⟩
  refine h.book.mono fun k => ?_
  rw [hzero k, Nat.zero_add]
  exact kept_removeHandle_le handle k

theorem step_perform (handle : String) : Tracked now s r (.perform handle) := by
  rcases h.handle_cases handle with ⟨hs, hr⟩ | ⟨op, p, hs, hr, hop⟩
  · refine ⟨r, ?_, ?_⟩ <;> simp only [Session.step, withHandle, hs]
    · exact .perform_none hr
    · exact h
  · have hb := h.book.mono fun k => add_kept_removeHandle_le k hs
    cases hperf : op.perform s.book with
    | mk answer rest =>
      obtain ⟨op', b'⟩ := rest
      cases answer with
      | ok out =>
        obtain ⟨p', r', hp, hop', hb'⟩ := hb.performs hop hperf
        refine ⟨r'.hold handle (some p'), ?_, ?_⟩ <;>
          simp only [Session.step, withHandle, hs, hperf]
        · exact .perform hr hp
        · exact (h.toLists.congr hp.beside).tracks_setHandle hop' hb'
      | error f =>
        obtain ⟨hp, rfl, hb'⟩ := hb.performs_none hop hperf
        refine ⟨r, ?_, ?_⟩ <;> simp only [Session.step, withHandle, hs, hperf]
        · exact .perform_failed hr hp
        · exact h.toLists.tracks_setHandle_self hr hop hb'

theorem step_reverse (handle : String) : Tracked now s r (.reverse handle) := by
  rcases h.handle_cases handle with ⟨hs, hr⟩ | ⟨op, p, hs, hr, hop⟩
  · refine ⟨r, ?_, ?_⟩ <;> simp only [Session.step, withHandle, hs]
    · exact .reverse_none hr
    · exact h
  · have hb := h.book.mono fun k => add_kept_removeHandle_le k hs
    cases hrev : op.reverse s.book with
    | mk answer rest =>
      obtain ⟨op', b'⟩ := rest
      cases answer with
      | ok _ =>
        obtain ⟨hnext, p', r', hp, hop', hb'⟩ := hb.reverses hop hrev
        rw [Book.Exhausted, ← hnext] at hp
        refine ⟨r'.hold handle (some p'), ?_, ?_⟩ <;>
          simp only [Session.step, withHandle, hs, hrev]
        · exact .reverse hr hp
        · exact (h.toLists.congr hp.beside).tracks_setHandle hop' hb'
      | error f =>
        obtain ⟨hp, rfl, rfl⟩ := hb.reverses_false hop hrev
        refine ⟨r, ?_, ?_⟩ <;> simp only [Session.step, withHandle, hs, hrev]
        · exact .reverse_failed hr hp
        · exact h.toLists.tracks_setHandle_self hr hop hb

theorem step_journalPerform (handle : String) (journal : Option String) :
    Tracked now s r (.journalPerform handle journal) := by
  rcases h.handle_cases handle with ⟨hs, hr⟩ | ⟨op, p, hs, hr, hop⟩
  · refine ⟨r, ?_, ?_⟩ <;> simp only [Session.step, withHandle, hs]
    · exact .journalPerform_none hr
    · exact h
  · have hstep : s.step now (.journalPerform handle journal) =
        (s.removeHandle handle).withJournal journal
          (fun j b => orStopped (j.perform id op b)) replyOf := by
      simp only [Session.step, withHandle, hs]
    have hb := h.book.mono fun k => add_kept_removeHandle_le k hs
    have hb' : (s.removeHandle handle).book.Carries
        (fun k => (id op).count k + (s.removeHandle handle).kept k) (r.hold handle none) :=
      hb.congr rfl rfl
    have hw : Operation.perform (id op) (s.removeHandle handle).book =
        Operation.lift id id (Reversible.perform op (s.removeHandle handle).book) :=
      (Journal.lift_id (op.perform s.book)).symm
    refine tracked_of_perform hstep (h.toLists.removeHandle handle) hop hb' hw (fun _ => rfl)
      (fun _ => rfl) ?_ ?_
    · exact fun hp => .journalPerform hr hp
    · exact fun hp => .journalPerform_failed hr hp

theorem removeJournal (journal : String) :
    (s.removeJournal journal).Tracks (r.setJournal journal []) := by
  have hb : s.book.Carries (s.removeJournal journal).kept r :=
    h.book.mono fun k => Nat.le_trans (Nat.le_add_left _ _) (add_kept_removeJournal_le journal k)
  exact ⟨h.toLists.removeJournal journal, hb.congr rfl rfl⟩

theorem step_rollback (journal : String) : Tracked now s r (.journalRollback journal) := by
  have hb : s.book.Carries (fun k =>
      ((s.journal journal).performed.map (·.count k)).sum + (s.removeJournal journal).kept k) r :=
    h.book.mono fun k => add_kept_removeJournal_le journal k
  cases hrev : (s.journal journal).rollback s.book with
  | mk answer b' =>
    obtain ⟨hnext, r', hps, hb'⟩ := hb.reversesAll (h.journals journal) hrev
    have ht : ((s.removeJournal journal).setBook b').Tracks (r'.setJournal journal []) :=
      ((h.toLists.congr hps.beside).removeJournal journal).tracks (hb'.congr rfl rfl)
    rw [Book.Exhausted, ← hnext] at hps
    refine ⟨r'.setJournal journal [], ?_, ?_⟩ <;> simp only [Session.step, hrev]
    · cases answer with
      | ok _ => exact .rollback hps
      | error f => exact .rollback_failed hps
    · exact ht

theorem step {step : Step} (hstep : step.isLedger = true) : Tracked now s r step := by
  by_cases hread : step.isRead = true
  · exact h.step_read hread
  · cases step with
    | addExpense actor e journal => exact h.step_add actor e journal
    | removeExpense actor id journal => exact h.step_remove actor id journal
    | hold handle op =>
      obtain ⟨p, hp⟩ := Option.isSome_iff_exists.mp hstep
      exact h.step_hold hp
    | perform handle => exact h.step_perform handle
    | reverse handle => exact h.step_reverse handle
    | journalPerform handle journal => exact h.step_journalPerform handle journal
    | journalCommit journal => exact ⟨_, .commit, h.removeJournal journal⟩
    | journalDrop journal => exact ⟨_, .drop, h.removeJournal journal⟩
    | journalRollback journal => exact h.step_rollback journal
    | _ => exact absurd hstep hread

theorem follows {steps : List (Amount × Step)} (hsteps : ∀ x ∈ steps, x.2.isLedger = true) :
    Follows s r steps := by
  induction steps generalizing s r with
  | nil => exact h.book.holds.shows
  | cons x steps ih =>
    obtain ⟨hx, hrest⟩ := List.forall_mem_cons.mp hsteps
    obtain ⟨r', htakes, htracks⟩ : Tracked x.1 s r x.2 := h.step hx
    exact ⟨h.book.holds.shows, r', htakes, ih htracks hrest⟩

end Tracks

theorem tracks_fresh : Session.fresh.Tracks .empty where
  handles _ := .none
  journals _ := .nil
  book := by
    refine ⟨Store.Holds.fresh, ?_, by simp [Register.empty]⟩
    intro _ k
    cases k <;> simp [Session.fresh, Book.fresh, Store.fresh, Store.count, Store.heldDeals,
      Store.heldSpendings, kept]

/-- The ledger is a finite map. Whatever is done with expenses from a fresh book on, by
calls, operations held by hand and journals in any order, the map does the same, and
reading an id answers its expense with the shares sorted stably. -/
theorem ledger_follows_catalogue (steps : List (Amount × Step))
    (hsteps : ∀ x ∈ steps, x.2.isLedger = true) :
    Follows Session.fresh .empty steps ∧
      ∀ shares, Share.StablySorted shares (Share.sorted shares) :=
  ⟨tracks_fresh.follows hsteps, Share.stablySorted_sorted⟩

def supper : Expense :=
  ⟨none, 1, "supper", 2, ⟨"EUR", by decide, by decide +kernel⟩,
    [⟨"bob", -1⟩, ⟨"alice", 2⟩, ⟨"bob", 3⟩]⟩

/-- An addition and a removal of the same expense, in two journals, undone in this order. -/
def supperSteps : List (Amount × Step) :=
  [(1, .hold "h" (.addExpense (.new supper))), (2, .journalPerform "h" (some "first")),
    (3, .removeExpense "bob" (Id.minted 1) (some "second")), (4, .journalRollback "first"),
    (5, .journalRollback "second")]

theorem supper_follows_catalogue : (∀ x ∈ supperSteps, x.2.isLedger = true) ∧
    Follows Session.fresh .empty supperSteps :=
  have hsteps : ∀ x ∈ supperSteps, x.2.isLedger = true := by simp [supperSteps]; decide
  ⟨hsteps, (ledger_follows_catalogue supperSteps hsteps).1⟩

end Session
end FriendLedger
