import FriendLedger.Proofs.Journal.PartialRollback
import FriendLedger.Proofs.Session.Entries

/-! Several journals on one store, all of which are rolled back. A reversal sets its place
to what was there before the performance, whatever has been written there since. So the
journal that is rolled back last among those that have written at a place decides what
is left there: what it found when it first wrote. -/

namespace FriendLedger

set_option autoImplicit false

namespace Journal

/-- The journal has recorded an operation that has changed the place. -/
def Writes (j : Journal) (p : Place) : Prop := ∃ op ∈ j.performed, op.writes? = some p

instance (j : Journal) (p : Place) : Decidable (j.Writes p) :=
  inferInstanceAs (Decidable (∃ op ∈ j.performed, op.writes? = some p))

def KeepsExpenses (j : Journal) : Prop := ∀ op ∈ j.performed, op.KeepsExpense

/-- Undoing the operations leaves at the place what `t` holds there, wherever it starts. -/
def Heals (ops : List Operation) (p : Place) (t : Store) : Prop :=
  ∀ c c' : Book, c.store.Keyed → Reverts ops c c' → c'.store.AgreesAt t p

variable {ops : List Operation} {op op' : Operation} {b b' : Book} {p : Place} {t : Store}
  {j : Journal}

theorem not_writes_empty : ¬ Journal.empty.Writes p := by
  simp [Writes, empty]

theorem writes_record : (j.record op).Writes p ↔ op.writes? = some p ∨ j.Writes p := by
  simp [Writes, record]

theorem Reverts.keyed (h : Reverts ops b b') (hk : b.store.Keyed) : b'.store.Keyed := by
  induction h with
  | nil => exact hk
  | cons h _ ih => exact ih ((Operation.reversal_of_reverse hk.toComplete h).keyed hk)

theorem Reverts.agreesAt (h : Reverts ops b b') (hops : ∀ op ∈ ops, op.KeepsExpense)
    (hk : b.store.Keyed) (hp : ∀ op ∈ ops, op.writes? ≠ some p) : b'.store.AgreesAt b.store p := by
  induction h with
  | nil => exact .refl _ p
  | cons h _ ih =>
    obtain ⟨hop, hrest⟩ := List.forall_mem_cons.mp hops
    obtain ⟨hpop, hprest⟩ := List.forall_mem_cons.mp hp
    have hr := Operation.reversal_of_reverse hk.toComplete h
    exact (ih hrest (hr.keyed hk) hprest).trans
      (hr.agreesAt_of_writes hk.toComplete hop hpop)

/-- What the older operations do at the place comes last. -/
theorem Heals.cons (h : Heals ops p t) : Heals (op :: ops) p t := by
  intro c c' hc hr
  cases hr with
  | cons hfirst hrest =>
    exact h _ _ ((Operation.reversal_of_reverse hc.toComplete hfirst).keyed hc) hrest

theorem heals_of_effect {out : Output} (h : Operation.Effect b op out op' b') (hb : b.store.Keyed)
    (hp : op'.writes? = some p) (hops : ∀ op ∈ ops, op.KeepsExpense)
    (hrest : ∀ op ∈ ops, op.writes? ≠ some p) : Heals (op' :: ops) p b.store := by
  intro c c' hc hr
  cases hr with
  | cons hfirst hr =>
    have hreversal := Operation.reversal_of_reverse hc.toComplete hfirst
    have hc' := hreversal.keyed hc
    exact (hr.agreesAt hops hc' hrest).trans (h.restores hb hc hp hreversal)

end Journal

namespace Session

/-! ### Steps -/

def Step.isRollback : Step → Bool
  | .journalRollback _ => true
  | _ => false

/-- Steps that ask, calls through a journal that has a name, and rollbacks. -/
def Step.isJournaled : Step → Bool
  | .request _ (some _) | .addExpense _ _ (some _) | .removeExpense _ _ (some _)
  | .journalPerform _ (some _) | .journalStep _ (some _) | .hold _ _ | .journalRollback _ => true
  | step => step.isRead

/-- What a step between the sessions does, unless it is a rollback. -/
inductive Calls (s s' : Session) : Prop
  | idle (hb : s'.book.store = s.book.store) (hj : ∀ name, s'.journal name = s.journal name)
  | performs {name : String} {op op' : Operation} {out : Output}
      (h : op.perform s.book = (.ok out, op', s'.book))
      (hj : ∀ other, s'.journal other = if other = name then (s.journal name).record op'
        else s.journal other)

/-- The journal is undone and gone. -/
structure RollsBack (name : String) (s s' : Session) : Prop where
  reverts : Journal.Reverts (s.journal name).performed s.book s'.book
  journals : ∀ other, s'.journal other = if other = name then .empty else s.journal other

section Steps
variable {now : Amount} {s : Session} {step : Step}

theorem calls_setJournal {name : String} {ok : Bool} {j : Journal} {b : Book}
    (h : Journal.Attempt (fun _ => True) (s.journal name) s.book ok j b) :
    Calls s ((s.setJournal name j).setBook b) := by
  have hjournal (other : String) : ((s.setJournal name j).setBook b).journal other =
      if other = name then j else s.journal other := journal_setJournal j
  cases h with
  | refused n =>
    refine .idle rfl fun other => ?_
    rw [hjournal, ite_eq_right_iff]
    exact fun heq => congrArg s.journal heq.symm
  | performed _ hop => exact .performs hop hjournal

/-- The caller is told whether the call has succeeded, in whatever form. -/
theorem calls_withJournal {α : Type} {call : Journal → Book → Except Stop α × Journal × Book}
    {reply : α → Reply} {name : String} {ok : Bool}
    (h : Journal.Attempt (fun _ => True) (s.journal name) s.book ok
      (call (s.journal name) s.book).2.1 (call (s.journal name) s.book).2.2) :
    Calls s (s.withJournal (some name) call reply).2 :=
  calls_setJournal h

theorem calls_of_isJournaled (h : step.isJournaled = true) (hr : step.isRollback = false) :
    Calls s (s.step now step).2 := by
  by_cases hread : step.isRead = true
  · rw [step_of_isRead hread]
    exact .idle rfl fun _ => rfl
  · cases step with
    | request r journal =>
      cases journal with
      | none => cases h
      | some name => exact calls_withJournal (Journal.attempt_request fun _ _ => trivial)
    | addExpense actor e journal =>
      cases journal with
      | none => cases h
      | some name => exact calls_withJournal (Journal.attempt_add trivial)
    | removeExpense actor id journal =>
      cases journal with
      | none => cases h
      | some name => exact calls_withJournal (Journal.attempt_remove trivial)
    | hold handle op => exact .idle rfl fun _ => rfl
    | journalPerform handle journal =>
      cases journal with
      | none => cases h
      | some name =>
        simp only [Session.step, withHandle]
        split
        · rename_i op _
          have hcalls : Calls (s.removeHandle handle) ((s.removeHandle handle).withJournal (some name)
              (fun j b => orStopped (j.perform id op b)) replyOf).2 :=
            calls_withJournal (Journal.attempt_operation trivial)
          -- the handle is gone, which neither the book nor the journals see
          cases hcalls with
          | idle hb hj => exact .idle hb hj
          | performs hop hj => exact .performs hop hj
        · exact .idle rfl fun _ => rfl
    | journalStep op journal =>
      cases journal with
      | none => cases h
      | some name =>
        exact calls_withJournal
          (@Journal.attempt_perform _ _ _ _ _ _ .step .number op rfl trivial)
    | journalRollback name => cases hr
    | _ => exact absurd h hread

theorem rollsBack_of_isOk {name : String} (h : (s.step now (.journalRollback name)).1.isOk = true) :
    RollsBack name s (s.step now (.journalRollback name)).2 := by
  refine ⟨?_, fun other => journal_removeJournal⟩
  obtain ⟨newer, older, b', hsplit, hreverts, hend⟩ :=
    Journal.reverseAll_cases (s.journal name).performed s.book
  simp only [Session.step, Journal.rollback] at h ⊢
  rcases hend with ⟨rfl, hall⟩ | ⟨k, rest, f, -, -, hall⟩
  · rw [List.append_nil] at hsplit
    rw [hall, hsplit]
    exact hreverts
  · rw [hall] at h
    cases h

end Steps
/-! ### Histories -/

/-- The steps are calls through journals and rollbacks, and no rollback fails. -/
def AllJournaled : Session → List (Amount × Step) → Prop
  | _, [] => True
  | s, (now, step) :: steps => step.isJournaled = true ∧
      (step.isRollback = true → (s.step now step).1.isOk = true) ∧
        AllJournaled (s.step now step).2 steps

theorem allJournaled_append {s : Session} {steps steps' : List (Amount × Step)} :
    AllJournaled s (steps ++ steps') ↔
      AllJournaled s steps ∧ AllJournaled (s.after steps) steps' := by
  induction steps generalizing s with
  | nil => simp [AllJournaled, after]
  | cons x steps ih => simp [AllJournaled, after, ih, and_assoc]

/-- Nobody has written at the place. -/
def Untouched (s : Session) (p : Place) (steps : List (Amount × Step)) : Prop :=
  ∀ part, part <+: steps → ∀ name, ¬ ((s.after part).journal name).Writes p

/-- The journal wrote at the place in the step after `pre`, for the first time since it
was opened, and it is still open after the steps. -/
inductive FirstWrote (s : Session) (name : String) (p : Place) (pre : List (Amount × Step)) :
    List (Amount × Step) → Prop
  | here {x : Amount × Step} (hbefore : ¬ ((s.after pre).journal name).Writes p)
      (h : ((s.after (pre ++ [x])).journal name).Writes p) :
      FirstWrote s name p pre (pre ++ [x])
  | later {steps : List (Amount × Step)} {x : Amount × Step} (hs : FirstWrote s name p pre steps)
      (h : ((s.after (steps ++ [x])).journal name).Writes p) :
      FirstWrote s name p pre (steps ++ [x])

/-- Of the journals that had written at the place when they were rolled back, this one
was the last. It had first written there after `pre`. -/
inductive LastUndone (s : Session) (name : String) (p : Place) (pre : List (Amount × Step)) :
    List (Amount × Step) → Prop
  | here {steps : List (Amount × Step)} {now : Amount} (h : FirstWrote s name p pre steps) :
      LastUndone s name p pre (steps ++ [(now, .journalRollback name)])
  | later {steps : List (Amount × Step)} {x : Amount × Step} (hs : LastUndone s name p pre steps)
      (h : ∀ other, x.2 = .journalRollback other →
        ¬ ((s.after steps).journal other).Writes p) :
      LastUndone s name p pre (steps ++ [x])

section Histories
variable {s : Session} {name : String} {p : Place} {pre steps : List (Amount × Step)}

theorem untouched_concat {x : Amount × Step} : Untouched s p (steps ++ [x]) ↔
    Untouched s p steps ∧ ∀ name, ¬ ((s.after (steps ++ [x])).journal name).Writes p := by
  simp [Untouched, List.prefix_concat_iff, or_imp, forall_and, and_comm]

theorem exists_firstWrote (hopen : ∀ name, s.journal name = .empty)
    (hw : ((s.after steps).journal name).Writes p) : ∃ pre, FirstWrote s name p pre steps := by
  induction steps using List.reverseRec with
  | nil =>
    have hempty : s.journal name = .empty := hopen name
    rw [after, List.foldl_nil, hempty] at hw
    exact absurd hw Journal.not_writes_empty
  | append_singleton steps x ih =>
    by_cases hbefore : ((s.after steps).journal name).Writes p
    · obtain ⟨pre, hf⟩ := ih hbefore
      exact ⟨pre, .later hf hw⟩
    · exact ⟨steps, .here hbefore hw⟩

theorem FirstWrote.initial (h : FirstWrote s name p pre steps) : pre <+: steps := by
  induction h with
  | here => exact List.prefix_append ..
  | later _ _ ih => exact ih.trans (List.prefix_append ..)

theorem LastUndone.initial (h : LastUndone s name p pre steps) : pre <+: steps := by
  induction h with
  | here hf => exact hf.initial.trans (List.prefix_append ..)
  | later _ _ ih => exact ih.trans (List.prefix_append ..)

theorem LastUndone.allJournaled (h : LastUndone s name p pre steps)
    (hall : AllJournaled s steps) : AllJournaled s pre := by
  obtain ⟨post, rfl⟩ := h.initial
  exact (allJournaled_append.mp hall).1

theorem step_cases {now : Amount} {step : Step} (h : step.isJournaled = true)
    (hok : step.isRollback = true → (s.step now step).1.isOk = true) :
    step.isRollback = false ∧ Calls s (s.step now step).2 ∨
      ∃ name, step = .journalRollback name ∧ RollsBack name s (s.step now step).2 := by
  cases hr : step.isRollback with
  | false => exact .inl ⟨rfl, calls_of_isJournaled h hr⟩
  | true =>
    cases step with
    | journalRollback name => exact .inr ⟨name, rfl, rollsBack_of_isOk (hok rfl)⟩
    | _ => cases hr

end Histories

theorem RollsBack.not_writes {s s' : Session} {name : String} {p : Place} (h : RollsBack name s s')
    (hname : ¬ (s.journal name).Writes p) (hp : ∀ other, ¬ (s'.journal other).Writes p) :
    ∀ other, ¬ (s.journal other).Writes p := by
  intro other
  by_cases hother : other = name
  · rw [hother]
    exact hname
  · have := hp other
    rwa [h.journals, if_neg hother] at this

/-- Only a journal that was not rolled back has anything to undo. -/
theorem RollsBack.journal_eq {s s' : Session} {name other : String} {p : Place}
    (h : RollsBack name s s') (hw : (s'.journal other).Writes p) :
    s'.journal other = s.journal other := by
  rw [h.journals] at hw ⊢
  split at hw
  · exact absurd hw Journal.not_writes_empty
  · rename_i hother
    exact if_neg hother

theorem Calls.journal_cases {s s' : Session} (h : Calls s s') (name : String) :
    s'.journal name = s.journal name ∨ ∃ (op op' : Operation) (out : Output),
      op.perform s.book = (.ok out, op', s'.book) ∧
        s'.journal name = (s.journal name).record op' := by
  cases h with
  | idle hb hj => exact .inl (hj name)
  | @performs other op op' out hop hj =>
    by_cases hname : name = other
    · subst hname
      exact .inr ⟨op, op', out, hop, by rw [hj, if_pos rfl]⟩
    · exact .inl (by rw [hj, if_neg hname])

/-- What holds of a session as long as its journals are the only writers. -/
structure Journaled (s : Session) : Prop where
  keyed : s.book.store.Keyed
  keeps : ∀ name, (s.journal name).KeepsExpenses

namespace Journaled
variable {s s' : Session} {name : String} {p : Place}

theorem calls (h : s.Journaled) (hc : Calls s s') : s'.Journaled := by
  cases hc with
  | idle hb hj =>
    refine ⟨?_, fun name => ?_⟩
    · rw [hb]
      exact h.keyed
    · rw [hj]
      exact h.keeps name
  | performs hop hj =>
    have heff := Operation.effect_of_perform h.keyed.toComplete hop
    refine ⟨heff.keyed h.keyed, fun other => ?_⟩
    rw [hj]
    split
    · exact List.forall_mem_cons.mpr ⟨heff.keepsExpense, h.keeps _⟩
    · exact h.keeps other

theorem rollsBack (h : s.Journaled) (hu : RollsBack name s s') : s'.Journaled := by
  refine ⟨hu.reverts.keyed h.keyed, fun other => ?_⟩
  rw [hu.journals]
  split
  · exact List.forall_mem_nil _
  · exact h.keeps other

/-- Where no journal has written after a call, none has before, and the rows are the same. -/
theorem calls_agreesAt (h : s.Journaled) (hc : Calls s s')
    (hp : ∀ name, ¬ (s'.journal name).Writes p) :
    (∀ name, ¬ (s.journal name).Writes p) ∧ s'.book.store.AgreesAt s.book.store p := by
  cases hc with
  | idle hb hj =>
    rw [hb]
    exact ⟨fun name => hj name ▸ hp name, .refl _ p⟩
  | @performs name op op' out hop hj =>
    have hrecorded := hp name
    rw [hj, if_pos rfl, Journal.writes_record, not_or] at hrecorded
    refine ⟨fun other => ?_, (Operation.effect_of_perform h.keyed.toComplete hop).agreesAt_of_writes
      h.keyed hrecorded.1⟩
    by_cases hother : other = name
    · rw [hother]
      exact hrecorded.2
    · have := hp other
      rwa [hj, if_neg hother] at this

theorem rollsBack_agreesAt (h : s.Journaled) (hu : RollsBack name s s')
    (hp : ¬ (s.journal name).Writes p) : s'.book.store.AgreesAt s.book.store p := by
  apply hu.reverts.agreesAt (h.keeps name) h.keyed
  intro op hop hw
  exact hp ⟨op, hop, hw⟩

end Journaled
section Run
variable {s : Session} {name : String} {p : Place} {pre steps : List (Amount × Step)}
  (h : s.Journaled)
include h

theorem Journaled.after (hall : AllJournaled s steps) : (s.after steps).Journaled := by
  induction steps generalizing s with
  | nil => exact h
  | cons x steps ih =>
    obtain ⟨hstep, hok, hrest⟩ := hall
    rcases step_cases hstep hok with ⟨-, hc⟩ | ⟨name, -, hu⟩
    · exact ih (h.calls hc) hrest
    · exact ih (h.rollsBack hu) hrest

/-- The last step of a history, with what is known of the session before it. -/
theorem Journaled.last {x : Amount × Step} (hall : AllJournaled s (steps ++ [x])) :
    AllJournaled s steps ∧ (s.after steps).Journaled ∧
      (x.2.isRollback = false ∧ Calls (s.after steps) (s.after (steps ++ [x])) ∨
        ∃ name, x.2 = .journalRollback name ∧
          RollsBack name (s.after steps) (s.after (steps ++ [x]))) := by
  obtain ⟨hsteps, hstep, hok, -⟩ := allJournaled_append.mp hall
  rw [after_concat]
  exact ⟨hsteps, h.after hsteps, step_cases hstep hok⟩

/-- Undoing a journal leaves at a place what was there before it first wrote. -/
theorem FirstWrote.heals (hf : FirstWrote s name p pre steps) (hall : AllJournaled s steps) :
    Journal.Heals ((s.after steps).journal name).performed p (s.after pre).book.store := by
  induction hf with
  | here hbefore hwrites =>
    obtain ⟨-, hpre, ⟨-, hc⟩ | ⟨other, -, hu⟩⟩ := h.last hall
    · rcases hc.journal_cases name with hj | ⟨op, op', out, hop, hj⟩
      · rw [hj] at hwrites
        exact absurd hwrites hbefore
      · rw [hj] at hwrites ⊢
        have hw := (Journal.writes_record.mp hwrites).resolve_right hbefore
        have heff := Operation.effect_of_perform hpre.keyed.toComplete hop
        refine Journal.heals_of_effect heff hpre.keyed hw (hpre.keeps name) ?_
        exact fun o ho hwo => hbefore ⟨o, ho, hwo⟩
    · rw [hu.journal_eq hwrites] at hwrites
      exact absurd hwrites hbefore
  | later hs hwrites ih =>
    obtain ⟨hsteps, -, ⟨-, hc⟩ | ⟨other, -, hu⟩⟩ := h.last hall
    · rcases hc.journal_cases name with hj | ⟨op, op', out, -, hj⟩
      · rw [hj]
        exact ih hsteps
      · rw [hj]
        exact (ih hsteps).cons
    · rw [hu.journal_eq hwrites]
      exact ih hsteps

theorem LastUndone.agreesAt (hl : LastUndone s name p pre steps)
    (hall : AllJournaled s steps) (hp : ∀ name, ¬ ((s.after steps).journal name).Writes p) :
    (s.after steps).book.store.AgreesAt (s.after pre).book.store p := by
  induction hl with
  | here hf =>
    obtain ⟨hsteps, hbefore, ⟨hr, -⟩ | ⟨other, heq, hu⟩⟩ := h.last hall
    · cases hr
    · cases heq
      exact hf.heals h hsteps _ _ hbefore.keyed hu.reverts
  | later hs hother ih =>
    obtain ⟨hsteps, hbefore, ⟨-, hc⟩ | ⟨other, heq, hu⟩⟩ := h.last hall
    · obtain ⟨hnone, hsame⟩ := hbefore.calls_agreesAt hc hp
      exact hsame.trans (ih hsteps hnone)
    · have hname := hother other heq
      exact (hbefore.rollsBack_agreesAt hu hname).trans (ih hsteps (hu.not_writes hname hp))

theorem Untouched.agreesAt (hu : Untouched s p steps) (hall : AllJournaled s steps) :
    (s.after steps).book.store.AgreesAt s.book.store p := by
  induction steps using List.reverseRec with
  | nil => exact .refl _ p
  | append_singleton steps x ih =>
    obtain ⟨hbefore, hnone⟩ := untouched_concat.mp hu
    obtain ⟨hsteps, hj, ⟨-, hc⟩ | ⟨name, -, hundoes⟩⟩ := h.last hall
    · exact (hj.calls_agreesAt hc hnone).2.trans (ih hbefore hsteps)
    · have hname := hbefore steps (List.prefix_refl steps) name
      exact (hj.rollsBack_agreesAt hundoes hname).trans (ih hbefore hsteps)

/-- Where no journal has anything to undo, nobody has written, or somebody was rolled back
last. -/
theorem untouched_or_lastUndone (hopen : ∀ name, s.journal name = .empty)
    (hall : AllJournaled s steps) (hp : ∀ name, ¬ ((s.after steps).journal name).Writes p) :
    Untouched s p steps ∨ ∃ name pre, LastUndone s name p pre steps := by
  induction steps using List.reverseRec with
  | nil =>
    refine .inl fun part hpart name => ?_
    rw [List.prefix_nil.mp hpart]
    exact hopen name ▸ Journal.not_writes_empty
  | append_singleton steps x ih =>
    obtain ⟨now, step⟩ := x
    obtain ⟨hsteps, hj, ⟨hr, hc⟩ | ⟨name, heq, hu⟩⟩ := h.last hall
    · rcases ih hsteps (hj.calls_agreesAt hc hp).1 with hnone | ⟨name, pre, hl⟩
      · exact .inl (untouched_concat.mpr ⟨hnone, hp⟩)
      · refine .inr ⟨name, pre, .later hl fun other heq => ?_⟩
        rw [heq] at hr
        cases hr
    · cases heq
      by_cases hname : ((s.after steps).journal name).Writes p
      · obtain ⟨pre, hf⟩ := exists_firstWrote hopen hname
        exact .inr ⟨name, pre, .here hf⟩
      · rcases ih hsteps (hu.not_writes hname hp) with hnone | ⟨other, pre, hl⟩
        · exact .inl (untouched_concat.mpr ⟨hnone, hp⟩)
        · refine .inr ⟨other, pre, .later hl fun other heq => ?_⟩
          cases heq
          exact hname

end Run

/-- All journals of a session are the only writers, in any interleaving, and all of them are
rolled back, in any order. Then every place holds what was there when the journal that
was rolled back last of those that had written there wrote first. -/
theorem rollbacks_leave_first_found {s : Session} {steps : List (Amount × Step)}
    (hk : s.book.store.Keyed) (hopen : ∀ name, s.journal name = .empty)
    (hall : AllJournaled s steps) (hdone : ∀ name, (s.after steps).journal name = .empty) :
    (∀ p, Untouched s p steps ∨ ∃ name pre, LastUndone s name p pre steps) ∧
    (∀ p, Untouched s p steps → (s.after steps).book.store.AgreesAt s.book.store p) ∧
    (∀ p name pre, LastUndone s name p pre steps →
      (s.after steps).book.store.AgreesAt (s.after pre).book.store p) ∧
    ((s.after steps).book.store.SameRows s.book.store ↔
      ∀ p name pre, LastUndone s name p pre steps →
        (s.after pre).book.store.AgreesAt s.book.store p) ∧
    ((∀ p name pre, LastUndone s name p pre steps → Untouched s p pre) →
      (s.after steps).book.store.SameRows s.book.store) := by
  have h : s.Journaled := ⟨hk, fun name => by rw [hopen]; exact List.forall_mem_nil _⟩
  have hnone (p : Place) (name : String) : ¬ ((s.after steps).journal name).Writes p :=
    hdone name ▸ Journal.not_writes_empty
  have hcases (p : Place) := untouched_or_lastUndone h hopen hall (hnone p)
  have huntouched (p : Place) (hu : Untouched s p steps) := hu.agreesAt h hall
  have hlast (p : Place) (name : String) (pre : List (Amount × Step))
      (hl : LastUndone s name p pre steps) := hl.agreesAt h hall (hnone p)
  have hsame : (s.after steps).book.store.SameRows s.book.store ↔
      ∀ p name pre, LastUndone s name p pre steps →
        (s.after pre).book.store.AgreesAt s.book.store p := by
    constructor
    · intro hrows p name pre hl
      exact (hlast p name pre hl).symm.trans (hrows.agrees hk p)
    · intro hfound
      refine (h.after hall).keyed.sameRows hk fun p => ?_
      rcases hcases p with hu | ⟨name, pre, hl⟩
      · exact huntouched p hu
      · exact (hlast p name pre hl).trans (hfound p name pre hl)
  refine ⟨hcases, huntouched, hlast, hsame, fun hfirst => hsame.mpr fun p name pre hl => ?_⟩
  exact (hfirst p name pre hl).agreesAt h (hl.allJournaled hall)

/-- Alice asks bob in one journal and withdraws it in another. -/
def askedSteps : List (Amount × Step) :=
  [(1, .request (.send "alice" "bob") (some "first")),
    (2, .request (.reject "alice" "bob") (some "second"))]

theorem journal_of_journals_eq_nil {s : Session} (h : s.journals = []) (name : String) :
    s.journal name = .empty := by
  rw [journal, h]
  rfl

theorem rollbacks_leave_nothing_asked : let steps : List (Amount × Step) :=
      askedSteps ++ [(3, .journalRollback "second"), (4, .journalRollback "first")]
    Session.fresh.book.store.Keyed ∧ (∀ name, Session.fresh.journal name = .empty) ∧
      AllJournaled Session.fresh steps ∧
      (∀ name, (Session.fresh.after steps).journal name = .empty) ∧
        ⟨"alice", "bob"⟩ ∉ (Session.fresh.after steps).book.store.heldEdges := by
  intro steps
  have hall : AllJournaled Session.fresh steps :=
    ⟨rfl, nofun, rfl, nofun, rfl, fun _ => by decide +kernel, rfl, fun _ => by decide +kernel, trivial⟩
  have hdone : (Session.fresh.after steps).journals = [] := by decide +kernel
  have hopen (name : String) : Session.fresh.journal name = .empty := journal_of_journals_eq_nil rfl name
  have hfirst : FirstWrote Session.fresh "first" (.edge ⟨"alice", "bob"⟩) [] steps.dropLast :=
    .later (.later (.here (by decide +kernel) (by decide +kernel)) (by decide +kernel))
      (by decide +kernel)
  obtain ⟨-, -, hlast, -⟩ := rollbacks_leave_first_found Store.keyed_fresh hopen hall
    (journal_of_journals_eq_nil hdone)
  refine ⟨Store.keyed_fresh, hopen, hall, journal_of_journals_eq_nil hdone, ?_⟩
  intro hheld
  cases (hlast _ _ _ (.here hfirst)).mp hheld

/-- In the other order the second journal puts back what the first one has taken away. -/
theorem rollbacks_leave_edge_asked : let steps : List (Amount × Step) :=
      askedSteps ++ [(3, .journalRollback "first"), (4, .journalRollback "second")]
    Session.fresh.book.store.Keyed ∧ (∀ name, Session.fresh.journal name = .empty) ∧
      AllJournaled Session.fresh steps ∧
      (∀ name, (Session.fresh.after steps).journal name = .empty) ∧
        ¬ (Session.fresh.after steps).book.store.SameRows Session.fresh.book.store := by
  intro steps
  have hheld : (Session.fresh.after steps).book.store.heldEdges = [⟨"alice", "bob"⟩] := by
    decide +kernel
  have hdone : (Session.fresh.after steps).journals = [] := by decide +kernel
  refine ⟨Store.keyed_fresh, journal_of_journals_eq_nil rfl, ?_, journal_of_journals_eq_nil hdone, ?_⟩
  · exact ⟨rfl, nofun, rfl, nofun, rfl, fun _ => by decide +kernel, rfl, fun _ => by decide +kernel,
      trivial⟩
  · intro hrows
    have hperm := hrows.edges
    rw [hheld] at hperm
    cases hperm.eq_nil

end Session
end FriendLedger
