import FriendLedger.Session
import Mathlib.Algebra.Order.Ring.Int
import Mathlib.Data.List.Induction

/-! Sessions over several steps, and their named journals and operations: what is found
under a name after an entry was set or removed, the moments of a history, the steps that
leave everything as it is, and runs, in which every step goes by a time of its own. -/

namespace FriendLedger.Session

set_option autoImplicit false

/-- A moment of a history is one of the history before its last event, or the last one. -/
theorem exists_moment_concat {α : Type} {xs : List α} {last : α} {P : List α → α → Prop} :
    (∃ before x rest, xs ++ [last] = before ++ x :: rest ∧ P before x) ↔
      (∃ before x rest, xs = before ++ x :: rest ∧ P before x) ∨ P xs last := by
  constructor
  · rintro ⟨before, x, rest, heq, hP⟩
    rcases List.eq_nil_or_concat rest with rfl | ⟨rest, y, rfl⟩
    · obtain ⟨rfl, hlast⟩ := List.append_inj' heq rfl
      cases hlast
      exact .inr hP
    · rw [List.concat_eq_append, ← List.cons_append, ← List.append_assoc] at heq
      obtain ⟨rfl, -⟩ := List.append_inj' heq rfl
      exact .inl ⟨before, x, rest, rfl, hP⟩
  · rintro (⟨before, x, rest, rfl, hP⟩ | hP)
    · exact ⟨before, x, rest ++ [last], by simp, hP⟩
    · exact ⟨xs, last, [], rfl, hP⟩

section Lists
variable {α : Type} (entries : List (String × α)) (name : String)

theorem lookup_without (other : String) :
    (without entries name).lookup other = if other = name then none else entries.lookup other := by
  induction entries with
  | nil => simp [without]
  | cons x xs ih =>
    obtain ⟨key, value⟩ := x
    simp only [without] at ih
    by_cases hkey : key = name
    · subst hkey
      by_cases ho : other = key
      · simpa [without, ho] using ih
      · have hbeq : (other == key) = false := by simpa using ho
        simpa [without, List.lookup_cons, ho, hbeq] using ih
    · by_cases ho : other = key
      · subst ho
        simp [without, hkey]
      · have hbeq : (other == key) = false := by simpa using ho
        simpa [without, List.lookup_cons, hkey, hbeq] using ih

/-- An entry that was set replaces the one of its name. -/
theorem lookup_set (other : String) (a : α) : ((name, a) :: without entries name).lookup other =
    if other = name then some a else entries.lookup other := by
  by_cases h : other = name
  · simp [h]
  · have hbeq : (other == name) = false := by simpa using h
    simp [List.lookup_cons, hbeq, lookup_without, h]

theorem lookup_add_sum_without_le (f : α → Nat) :
    ((entries.lookup name).map f).getD 0 + ((without entries name).map fun x => f x.2).sum ≤
      (entries.map fun x => f x.2).sum := by
  induction entries with
  | nil => simp [without]
  | cons x xs ih =>
    obtain ⟨key, value⟩ := x
    simp only [without] at ih
    by_cases hkey : key = name
    · subst hkey
      simp only [without, List.lookup_cons, beq_self_eq_true, Option.map_some, Option.getD_some,
        List.map_cons, List.sum_cons, ne_eq, not_true_eq_false, decide_false, Bool.false_eq_true,
        not_false_eq_true, List.filter_cons_of_neg]
      simp only [ne_eq] at ih
      omega
    · have hbeq : (name == key) = false := by simpa using Ne.symm hkey
      simp only [without, List.lookup_cons, hbeq, List.map_cons, List.sum_cons, ne_eq, hkey,
        not_false_eq_true, decide_true, List.filter_cons_of_pos]
      simp only [ne_eq] at ih
      omega

end Lists

variable {s : Session} {name other : String}

theorem lookup_setHandle (op : Operation) : (s.setHandle name op).handles.lookup other =
    if other = name then some op else s.handles.lookup other :=
  lookup_set s.handles name other op

theorem lookup_removeHandle : (s.removeHandle name).handles.lookup other =
    if other = name then none else s.handles.lookup other :=
  lookup_without s.handles name other

theorem journal_setJournal (j : Journal) :
    (s.setJournal name j).journal other = if other = name then j else s.journal other := by
  simp only [setJournal, journal, lookup_set]
  split <;> rfl

theorem journal_removeJournal : (s.removeJournal name).journal other =
    if other = name then .empty else s.journal other := by
  simp only [removeJournal, journal, lookup_without]
  split <;> rfl

/-- Steps that only ask. -/
def Step.isRead : Step → Bool
  | .views _ | .statuses _ _ | .edges _ _ | .getExpense _ _ | .findExpense _ | .between _ _
  | .balance _ | .inspect _ | .journalShow _ | .trace | .dump => true
  | _ => false

theorem step_of_isRead {now : Amount} {step : Step} (h : step.isRead = true) :
    (s.step now step).2 = s := by
  cases step with
  | inspect handle =>
    simp only [Session.step, withHandle]
    split <;> rfl
  | _ => first | rfl | cases h

section Calls
variable {α : Type} {call : Journal → Book → Except Stop α × Journal × Book} {reply : α → Reply}

theorem book_withJournal (journal : Option String) : ∃ j,
    (s.withJournal journal call reply).2.book = (call j s.book).2.2 := by
  cases journal with
  | none => exact ⟨.empty, rfl⟩
  | some name => exact ⟨s.journal name, rfl⟩

/-- A call that does the same whatever its journal holds, and records what satisfies `P`. -/
theorem withJournal_of_call (call : Journal → Book → Except Stop α × Journal × Book)
    (reply : α → Reply) {P : Operation → Prop} {answer : Except Stop α} {record : Journal → Journal}
    {b : Book} (hcall : ∀ j, call j s.book = (answer, record j, b))
    (hrecord : ∀ j, (∀ op ∈ j.performed, P op) → ∀ op ∈ (record j).performed, P op)
    (hj : ∀ name, ∀ op ∈ (s.journal name).performed, P op) (journal : Option String) :
    (s.withJournal journal call reply).1 = stopped (answer.map reply) ∧
      (s.withJournal journal call reply).2.book = b ∧
      ∀ name, ∀ op ∈ ((s.withJournal journal call reply).2.journal name).performed, P op := by
  cases journal with
  | none =>
    simp only [withJournal, hcall]
    exact ⟨trivial, rfl, hj⟩
  | some own =>
    simp only [withJournal, hcall]
    refine ⟨trivial, rfl, ?_⟩
    intro name
    have hset : ((s.setJournal own (record (s.journal own))).setBook b).journal name = _ :=
      journal_setJournal (record (s.journal own))
    rw [hset]
    split
    · exact hrecord _ (hj own)
    · exact hj name

end Calls

/-! ### Runs -/

/-- The session after a run of steps, each with the time that it goes by. -/
def after (s : Session) (steps : List (Amount × Step)) : Session :=
  steps.foldl (fun s x => (s.step x.1 x.2).2) s

theorem after_append (steps steps' : List (Amount × Step)) :
    s.after (steps ++ steps') = (s.after steps).after steps' :=
  List.foldl_append

theorem after_concat (steps : List (Amount × Step)) (x : Amount × Step) :
    s.after (steps ++ [x]) = ((s.after steps).step x.1 x.2).2 :=
  after_append steps [x]

/-- What all steps of one kind keep, whatever the time, a run of such steps keeps. -/
theorem after_induction (P : Session → Prop) (Kind : Step → Prop)
    (hkeeps : ∀ {s now step}, P s → Kind step → P (s.step now step).2) (h : P s)
    {steps : List (Amount × Step)} (hsteps : ∀ x ∈ steps, Kind x.2) : P (s.after steps) := by
  induction steps generalizing s with
  | nil => exact h
  | cons x steps ih =>
    obtain ⟨hx, hrest⟩ := List.forall_mem_cons.mp hsteps
    exact ih (hkeeps h hx) hrest

end FriendLedger.Session
