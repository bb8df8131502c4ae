import FriendLedger.Proofs.Journal.Restoration
import FriendLedger.Proofs.Operation.Filled
import Mathlib.Data.List.Induction

/-! Rollbacks that stop on the way. A recorded step may refuse to be undone, with any
failure. Then what was recorded after it has been undone, newest first, and the store
is back where it was when the refusing operation had just been performed. The trace
only grows: it keeps the numbers of the steps that were undone. -/

namespace FriendLedger

set_option autoImplicit false

namespace Operation

/-- The number that a performance leaves in the trace. -/
def number? : Operation → Option Int
  | .step op => some op.number
  | _ => none

/-- Why the operation refuses to be undone, whatever is in the book. -/
def refusal? : Operation → Option Failure
  | .step op => op.reverseFailure
  | _ => none

variable {b b' c c' : Book} {op op' op'' : Operation} {out : Output}

theorem Effect.trace_eq (h : Effect b op out op' b') :
    b'.trace = b.trace ++ op'.number?.toList := by
  cases h <;> simp [number?, Book.useIds]

theorem Reversal.trace_eq (h : Reversal b op op' b') :
    b'.trace = b.trace ++ op.number?.toList.map (- ·) := by
  cases h <;> simp [number?]

theorem Reversal.refusal?_eq_none (h : Reversal b op op' b') : op.refusal? = none := by
  cases h with
  | step hr => exact hr
  | _ => rfl

/-- A reversal from rows that agree with those after the performance leads to rows that
agree with those before it. -/
theorem Effect.leadsBack (h : Effect b op out op' b') (hb : b.store.Keyed) (hc : c.store.Keyed)
    (hcb : c.store.Agrees b'.store) (hr : Reversal c op' op'' c') :
    c'.store.Keyed ∧ c'.store.Agrees b.store := by
  cases hs : op.isScripted with
  | true =>
    cases h with
    | step =>
      cases hr
      exact ⟨hc, hcb⟩
    | _ => cases hs
  | false =>
    obtain ⟨hu, hback⟩ := h.undoes hb hs
    have hspares : Spares [op'] b'.store c.store := spares_of_agrees fun p => (hcb p).symm
    have huc : op'.Undoable c.store := hu.of_spares hspares
    obtain ⟨_, hrev⟩ := huc.reverse_eq hc.toComplete
    rw [reverse_of_reversal hc.toComplete hr] at hrev
    cases hrev
    exact ⟨huc.keyed_undone hc, fun p => (huc.undone_congr (hcb p)).trans (hback p)⟩

/-- An operation on the store can be undone right after it was performed. -/
theorem scripted_or_undoable (hk : b.store.filled.Keyed) (h : op.perform b = (.ok out, op', b')) :
    op'.isScripted = true ∨ op'.Undoable b'.store.filled := by
  have heff := effect_filled h
  cases hs : op.isScripted with
  | true => exact .inl (heff.isScripted_eq.trans hs)
  | false => exact .inr (heff.undoes hk hs).1

end Operation

namespace Journal

/-- The operations are undone, one after another. -/
inductive Reverts : List Operation → Book → Book → Prop
  | nil {b : Book} : Reverts [] b b
  | cons {op op' : Operation} {ops : List Operation} {b b₁ b' : Book}
      (h : op.reverse b = (.ok (), op', b₁)) (hs : Reverts ops b₁ b') : Reverts (op :: ops) b b'

/-- The numbers of the steps among the operations. -/
def numbers (ops : List Operation) : List Int := ops.filterMap Operation.number?

theorem numbers_cons (op : Operation) (ops : List Operation) :
    numbers (op :: ops) = op.number?.toList ++ numbers ops := by
  cases h : op.number? <;> simp [numbers, h]

section Reverting
variable {ops : List Operation} {op op' : Operation} {b b' : Book}

theorem Reverts.sameTables (h : Reverts ops b b') : b.store.SameTables b'.store := by
  induction h with
  | nil => exact .refl _
  | cons h _ ih => exact (Operation.reverse_filled h).2.trans ih

theorem Reverts.trace_eq (h : Reverts ops b b') :
    b'.trace = b.trace ++ (numbers ops).map (- ·) := by
  induction h with
  | nil => simp [numbers]
  | cons h _ ih =>
    have hfirst := (Operation.reversal_filled h).trace_eq
    simp only [Book.filled] at hfirst
    rw [ih, hfirst, numbers_cons, List.map_append, List.append_assoc]

theorem Reverts.refusal?_eq_none (h : Reverts ops b b') : ∀ op ∈ ops, op.refusal? = none := by
  induction h with
  | nil => simp
  | cons h _ ih => exact List.forall_mem_cons.mpr ⟨(Operation.reversal_filled h).refusal?_eq_none, ih⟩

/-- Operations are undone until the first one that fails. -/
theorem reverseAll_cases (ops : List Operation) (b : Book) :
    ∃ newer older b', ops = newer ++ older ∧ Reverts newer b b' ∧
      (older = [] ∧ reverseAll ops b = (.ok (), b') ∨
        ∃ k rest f, older = k :: rest ∧ k.reverse b' = (.error f, k, b') ∧
          reverseAll ops b = (.error f.inRollback, b')) := by
  induction ops generalizing b with
  | nil => exact ⟨[], [], b, rfl, .nil, .inl ⟨rfl, rfl⟩⟩
  | cons op ops ih =>
    cases h : op.reverse b with
    | mk answer rest =>
      obtain ⟨op', b₁⟩ := rest
      simp only [reverseAll, h]
      cases answer with
      | ok _ =>
        obtain ⟨newer, older, b', rfl, hnewer, hend⟩ := ih b₁
        exact ⟨op :: newer, older, b', rfl, .cons h hnewer, hend⟩
      | error f =>
        obtain ⟨rfl, rfl⟩ := Operation.reverse_error h
        exact ⟨[], op' :: ops, b₁, rfl, .nil, .inr ⟨op', ops, f, rfl, h, rfl⟩⟩

end Reverting

/-- The operations were recorded between the books `b` and `b'`, and undoing them leads
back from the rows of `b'` to those of `b`. -/
structure Undoes (ops : List Operation) (b b' : Book) : Prop where
  trace : b'.trace = b.trace ++ (numbers ops).reverse
  leadsBack : ∀ {c c' : Book}, c.store.filled.Keyed → c.store.Agrees b'.store →
    Reverts ops c c' → c'.store.filled.Keyed ∧ c'.store.Agrees b.store

namespace Undoes
variable {ops : List Operation} {op op' : Operation} {b b₁ b' : Book}

theorem nil (b : Book) : Undoes [] b b where
  trace := by simp [numbers]
  leadsBack hc hcb hr := by
    cases hr
    exact ⟨hc, hcb⟩

theorem useIds (h : Undoes ops b b') (n : Nat) : Undoes ops b (b'.useIds n) :=
  ⟨h.trace, h.leadsBack⟩

/-- One more operation is performed and recorded. -/
theorem perform {out : Output} (h : Undoes ops b b₁) (hk : b₁.store.filled.Keyed)
    (hop : op.perform b₁ = (.ok out, op', b')) : Undoes (op' :: ops) b b' := by
  have heff := Operation.effect_filled hop
  constructor
  · have htrace := heff.trace_eq
    simp only [Book.filled] at htrace
    rw [htrace, h.trace, numbers_cons]
    cases op'.number? <;> simp
  · intro c c' hc hcb hr
    cases hr with
    | @cons _ _ _ _ c₁ _ hfirst hrest =>
      have hback : c₁.filled.store.Keyed ∧ c₁.filled.store.Agrees b₁.filled.store :=
        heff.leadsBack hk (c := c.filled) hc hcb (Operation.reversal_filled hfirst)
      exact h.leadsBack hback.1 hback.2 hrest

end Undoes

/-! ### Calls of our own -/

namespace Event
variable {x : Journal × Book} {evs : List Event} {ev : Event}

/-- Whether the call answers that it has done its work. -/
def succeeds (ev : Event) (x : Journal × Book) : Bool :=
  match ev with
  | .perform op => (x.1.perform id op x.2).1.isOk
  | .request r => (r.run x.1 x.2).1.isOk
  | .add actor e => (Ledger.add actor e x.1 x.2).1.isOk
  | .remove actor id => (Ledger.remove actor id x.1 x.2).1.isOk
  | .others _ => false

def successes : List Event → Journal × Book → Nat
  | [], _ => 0
  | ev :: evs, x => (ev.succeeds x).toNat + successes evs (ev.run x)

theorem attempt (ho : ev.isOthers = false) :
    Attempt (fun _ => True) x.1 x.2 (ev.succeeds x) (ev.run x).1 (ev.run x).2 := by
  cases ev with
  | perform op => exact attempt_operation trivial
  | request r => exact attempt_request fun _ _ => trivial
  | add actor e => exact attempt_add trivial
  | remove actor id => exact attempt_remove trivial
  | others b => cases ho

theorem length_run (ho : ev.isOthers = false) :
    (ev.run x).1.length = (ev.succeeds x).toNat + x.1.length := by
  have h := attempt (x := x) ho
  generalize ev.succeeds x = ok, ev.run x = y at h
  obtain ⟨j, b⟩ := y
  cases h with
  | refused => simp
  | performed => simp [length, Nat.add_comm]

/-- The journal counts the calls that succeed. -/
theorem length_runAll (ho : ∀ ev ∈ evs, ev.isOthers = false) :
    (runAll evs x).1.length = successes evs x + x.1.length := by
  induction evs generalizing x with
  | nil => simp [runAll, successes]
  | cons ev evs ih =>
    obtain ⟨hev, hrest⟩ := List.forall_mem_cons.mp ho
    rw [runAll, ih hrest, length_run hev, successes]
    omega

/-- The event changes neither the journal nor the store nor the trace. -/
def Idle (ev : Event) (x : Journal × Book) : Prop :=
  (ev.run x).1 = x.1 ∧ (ev.run x).2.store = x.2.store ∧ (ev.run x).2.trace = x.2.trace

theorem idle_of_not_succeeds (ho : ev.isOthers = false) (h : ev.succeeds x = false) : ev.Idle x := by
  unfold Idle
  have hev := attempt (x := x) ho
  rw [h] at hev
  generalize ev.run x = y at hev
  obtain ⟨j, b⟩ := y
  cases hev
  exact ⟨rfl, rfl, rfl⟩

theorem run_cases (ho : ev.isOthers = false) : (∃ n, ev.run x = (x.1, x.2.useIds n)) ∨
    ∃ (op op' : Operation) (out : Output) (b : Book),
      op.perform x.2 = (.ok out, op', b) ∧ ev.run x = (x.1.record op', b) := by
  have hev := attempt (x := x) ho
  generalize ev.succeeds x = ok, ev.run x = y at hev
  obtain ⟨j, b⟩ := y
  cases hev with
  | refused n => exact .inl ⟨n, rfl⟩
  | performed _ hop => exact .inr ⟨_, _, _, _, hop, rfl⟩

theorem filled_runAll (hk : x.2.store.filled.Keyed) (ho : ∀ ev ∈ evs, ev.isOthers = false) :
    (runAll evs x).2.store.filled.Keyed ∧ (runAll evs x).2.store.SameTables x.2.store := by
  induction evs generalizing x with
  | nil => exact ⟨hk, .refl _⟩
  | cons ev evs ih =>
    obtain ⟨hev, hrest⟩ := List.forall_mem_cons.mp ho
    rw [runAll]
    rcases run_cases (x := x) hev with ⟨n, hrun⟩ | ⟨op, op', out, b, hop, hrun⟩
    · rw [hrun]
      exact ih hk hrest
    · rw [hrun]
      have heff := Operation.effect_filled hop
      have hsame := (Operation.perform_filled hop).2
      obtain ⟨hk', htables⟩ := ih (x := (x.1.record op', b)) (heff.keyed hk) hrest
      exact ⟨hk', htables.trans hsame.symm⟩

theorem runAll_concat : runAll (evs ++ [ev]) x = ev.run (runAll evs x) := by
  rw [runAll_append]
  rfl

end Event

/-- The state `y` in which the journal has come to hold exactly the operations. -/
def CameToHold (evs : List Event) (x : Journal × Book) (ops : List Operation) (y : Journal × Book) :
    Prop :=
  ∃ pre post, evs = pre ++ post ∧ y = Event.runAll pre x ∧ y.1.performed = ops ∧
    ∀ pre' ev, pre = pre' ++ [ev] → (Event.runAll pre' x).1.performed ≠ ops

theorem CameToHold.append {evs : List Event} {x y : Journal × Book} {ops : List Operation}
    (h : CameToHold evs x ops y) (evs' : List Event) : CameToHold (evs ++ evs') x ops y := by
  obtain ⟨pre, post, rfl, hy⟩ := h
  exact ⟨pre, post ++ evs', List.append_assoc .., hy⟩

section History
variable {evs : List Event} {x : Journal × Book} {newer older : List Operation}

theorem cameToHold_concat {ev : Event} {op : Operation} {b : Book}
    (h : ev.run (Event.runAll evs x) = ((Event.runAll evs x).1.record op, b)) :
    CameToHold (evs ++ [ev]) x (op :: (Event.runAll evs x).1.performed)
      ((Event.runAll evs x).1.record op, b) := by
  refine ⟨evs ++ [ev], [], (List.append_nil _).symm, ?_, rfl, ?_⟩
  · rw [Event.runAll_concat, h]
  · intro pre ev' hpre hheld
    obtain ⟨rfl, -⟩ := List.append_inj' hpre rfl
    exact List.cons_ne_self _ _ hheld.symm

/-- However the records of a journal are split, there was a state in which it held the
older ones alone, and undoing the newer ones leads back there. -/
theorem exists_cameToHold (hk : x.2.store.filled.Keyed) (hx : x.1.performed = [])
    (ho : ∀ ev ∈ evs, ev.isOthers = false)
    (hsplit : (Event.runAll evs x).1.performed = newer ++ older) :
    ∃ y, CameToHold evs x older y ∧ Undoes newer y.2 (Event.runAll evs x).2 ∧
      ∀ k rest, older = k :: rest → k.isScripted = true ∨ k.Undoable y.2.store.filled := by
  induction evs using List.reverseRec generalizing newer older with
  | nil =>
    obtain ⟨rfl, rfl⟩ := List.append_eq_nil_iff.mp (hsplit.symm.trans hx)
    refine ⟨x, ⟨[], [], rfl, rfl, hx, ?_⟩, .nil _, ?_⟩
    · intro pre' ev hpre
      simp at hpre
    · intro k rest hold
      cases hold
  | append_singleton evs ev ih =>
    have hown : ∀ ev ∈ evs, ev.isOthers = false := fun ev hm => ho ev (by simp [hm])
    have hbefore := (Event.filled_runAll hk hown).1
    rw [Event.runAll_concat] at hsplit ⊢
    rcases Event.run_cases (x := Event.runAll evs x) (ho ev (by simp)) with
      ⟨n, hrun⟩ | ⟨op, op', out, b, hop, hrun⟩
    · rw [hrun] at hsplit ⊢
      obtain ⟨y, hheld, hundoes, hnewest⟩ := ih hown hsplit
      exact ⟨y, hheld.append [ev], hundoes.useIds n, hnewest⟩
    · have hheld := cameToHold_concat hrun
      rw [hrun] at hsplit ⊢
      cases newer with
      | nil =>
        obtain rfl : op' :: (Event.runAll evs x).1.performed = older := hsplit
        refine ⟨_, hheld, .nil _, ?_⟩
        intro k rest hold
        cases hold
        exact Operation.scripted_or_undoable hbefore hop
      | cons op₁ newer =>
        obtain ⟨rfl, hrest⟩ : op' = op₁ ∧ (Event.runAll evs x).1.performed = newer ++ older :=
          List.cons.inj hsplit
        obtain ⟨y, hheld, hundoes, hnewest⟩ := ih hown hrest
        exact ⟨y, hheld.append [ev], hundoes.perform hbefore hop, hnewest⟩

/-- In a complete store only a scripted step that refuses stops a rollback. -/
theorem refusal?_of_reverse_error {k k' : Operation} {c c' : Book} {s : Store} {f : Failure}
    (hk : k.isScripted = true ∨ k.Undoable s) (hc : c.store.Complete) (hcs : c.store.Agrees s)
    (h : k.reverse c = (.error f, k', c')) : k.refusal? = some f := by
  rcases hk with hscripted | hundoable
  · cases k with
    | step op =>
      simp only [Operation.reverse, ScriptedStep.reverse] at h
      split at h <;> cases h
      assumption
    | _ => cases hscripted
  · have hspares : Operation.Spares [k] s c.store :=
      Operation.spares_of_agrees fun p => (hcs p).symm
    obtain ⟨_, hrev⟩ := (hundoable.of_spares hspares).reverse_eq hc
    rw [h] at hrev
    cases hrev

end History

/-- The rows of `b` in the same tables, and its trace with the numbers of the operations,
first performed and then undone. -/
structure LeadsBackTo (ops : List Operation) (b b' : Book) : Prop where
  rows : b'.store.SameRows b.store
  tables : b'.store.SameTables b.store
  trace : b'.trace = b.trace ++ (numbers ops).reverse ++ (numbers ops).map (- ·)

/-- How a rollback of the journal ends, which leaves the operations in place and the book
like this. The failure of the newest of them is the cause, unless it is itself that of a
rollback. -/
inductive Leaves (j : Journal) (b : Book) : List Operation → Book → Prop
  | nothing {b' : Book} (h : j.rollback b = (.ok (), b')) : Leaves j b [] b'
  | refused {k : Operation} {rest : List Operation} {b' : Book} {f g : Failure}
      (hk : k.reverse b' = (.error f, k, b')) (h : j.rollback b = (.error g, b'))
      (hg : (∃ cause, f = .rollbackFailed cause) ∧ g = f ∨
        (∀ cause, f ≠ .rollbackFailed cause) ∧ g = .rollbackFailed f) :
      Leaves j b (k :: rest) b'

theorem leaves_of_reverseAll {newer older : List Operation} {j : Journal} {b b' : Book}
    (hj : j.performed = newer ++ older)
    (h : older = [] ∧ reverseAll (newer ++ older) b = (.ok (), b') ∨
      ∃ k rest f, older = k :: rest ∧ k.reverse b' = (.error f, k, b') ∧
        reverseAll (newer ++ older) b = (.error f.inRollback, b')) : Leaves j b older b' := by
  rw [← hj] at h
  rcases h with ⟨rfl, hall⟩ | ⟨k, rest, f, rfl, hk, hall⟩
  · exact .nothing hall
  · refine .refused hk hall ?_
    cases f with
    | rollbackFailed cause => exact .inl ⟨⟨cause, rfl⟩, rfl⟩
    | _ => exact .inr ⟨nofun, rfl⟩

/-- Whatever calls have gone through a journal, some of which may have failed, a rollback
undoes the newest records up to the first that cannot be undone. It leaves the store as
it was when the journal had just come to hold what stays in place. In a complete store
only a scripted step can refuse to be undone. -/
theorem rollback_leads_to_newest_refusal {b₀ : Book} {evs : List Event} {x : Journal × Book}
    (hk : b₀.store.filled.Keyed) (ho : ∀ ev ∈ evs, ev.isOthers = false)
    (hx : Event.runAll evs (.empty, b₀) = x) :
    x.1.length = Event.successes evs (.empty, b₀) ∧
    (∀ pre ev post, evs = pre ++ ev :: post →
      ev.succeeds (Event.runAll pre (.empty, b₀)) = false →
        ev.Idle (Event.runAll pre (.empty, b₀))) ∧
    ∃ newer older b' y, x.1.performed = newer ++ older ∧ Reverts newer x.2 b' ∧
      Leaves x.1 x.2 older b' ∧ CameToHold evs (.empty, b₀) older y ∧ LeadsBackTo newer y.2 b' ∧
        (b₀.store.Complete → older = x.1.performed.dropWhile (·.refusal?.isNone)) := by
  subst hx
  refine ⟨Event.length_runAll ho, ?_, ?_⟩
  · rintro pre ev post rfl hfails
    exact Event.idle_of_not_succeeds (ho ev (by simp)) hfails
  · obtain ⟨newer, older, b', hsplit, hreverts, hend⟩ := reverseAll_cases
      (Event.runAll evs (.empty, b₀)).1.performed (Event.runAll evs (.empty, b₀)).2
    rw [hsplit] at hend
    obtain ⟨y, hheld, hundoes, hnewest⟩ := exists_cameToHold hk rfl ho hsplit
    obtain ⟨hkeyed, htables⟩ := Event.filled_runAll (x := (.empty, b₀)) hk ho
    obtain ⟨hkb, hagrees⟩ := hundoes.leadsBack hkeyed (fun p => .refl _ p) hreverts
    obtain ⟨hky, htables'⟩ : y.2.store.filled.Keyed ∧ y.2.store.SameTables b₀.store := by
      obtain ⟨pre, post, rfl, rfl, -⟩ := hheld
      exact Event.filled_runAll (x := (.empty, b₀)) hk fun ev hm => ho ev (by simp [hm])
    have htables₁ := hreverts.sameTables.symm.trans htables
    refine ⟨newer, older, b', y, hsplit, hreverts, leaves_of_reverseAll hsplit hend, hheld,
      ⟨hagrees.sameRows hkb hky, htables₁.trans htables'.symm, ?_⟩, ?_⟩
    · rw [hreverts.trace_eq, hundoes.trace]
    · intro hc
      have hnone : ∀ op ∈ newer, op.refusal?.isNone = true := by
        intro op hm
        rw [hreverts.refusal?_eq_none op hm]
        rfl
      rw [hsplit, List.dropWhile_append_of_pos hnone]
      rcases hend with ⟨rfl, -⟩ | ⟨k, rest, f, rfl, hfails, -⟩
      · rfl
      · have hcb : b'.store.Complete := hc.of_sameTables htables₁.symm
        have hrefusal := refusal?_of_reverse_error (hnewest k rest rfl) hcb hagrees hfails
        rw [List.dropWhile_cons_of_neg]
        simp [hrefusal]

/-- A step that refuses to be undone, a request, a step and one that is not performed. -/
def stuckEvents : List Event :=
  [.perform (.step ⟨1, none, some (.rollbackFailed (.rollbackFailed (.compensation "stuck")))⟩),
    .request (.send "alice" "bob"), .perform (.step ⟨2, none, none⟩),
    .perform (.step ⟨3, some (.compensation "refused"), none⟩)]

theorem rollback_leads_to_stuck_step : Book.fresh.store.filled.Keyed ∧
    (∀ ev ∈ stuckEvents, ev.isOthers = false) ∧
      ∃ x, Event.runAll stuckEvents (.empty, .fresh) = x ∧ x.1.length = 3 ∧
        ∃ newer older b', ∃ y : Journal × Book, x.1.performed = newer ++ older ∧ older.length = 1 ∧
          Leaves x.1 x.2 older b' ∧ LeadsBackTo newer y.2 b' := by
  have hk : Book.fresh.store.filled.Keyed := Store.keyed_fresh
  have ho : ∀ ev ∈ stuckEvents, ev.isOthers = false := by simp [stuckEvents, Event.isOthers]
  obtain ⟨hlength, -, newer, older, b', y, hsplit, -, hleaves, -, hback, hold⟩ :=
    rollback_leads_to_newest_refusal hk ho rfl
  refine ⟨hk, ho, _, rfl, ?_, newer, older, b', y, hsplit, ?_, hleaves, hback⟩
  · rw [hlength]
    decide +kernel
  · rw [hold Store.keyed_fresh.toComplete]
    decide +kernel

/-- The entries of steps that were undone stay in the trace. -/
theorem rollback_keeps_entries :
    let k : Operation := .step ⟨1, none, some (.invalidRequest "stuck")⟩
    let y := (Event.perform k).run (.empty, .fresh)
    let x := (Event.perform (.step ⟨2, none, none⟩)).run y
    (x.1.rollback x.2).1 = .error (.rollbackFailed (.invalidRequest "stuck")) ∧
      y.1.performed = [k] ∧ y.2.trace = [1] ∧ (x.1.rollback x.2).2.trace = [1, 2, -2] ∧
        (x.1.rollback x.2).2.trace.filter (0 < ·) ≠ y.2.trace := by
  decide +kernel

end Journal
end FriendLedger
