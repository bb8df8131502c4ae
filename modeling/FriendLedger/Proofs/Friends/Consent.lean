import FriendLedger.Proofs.Friends.Relationships

/-! Consent. An edge comes into the store through a request of its own sender alone, who
asks the target or agrees to have been asked. What a rollback puts back was there before,
so that it goes back to such a request as well; and of two friends each has acted, the
first one by asking. -/

namespace FriendLedger

set_option autoImplicit false

/-! ### Where edges come from -/

namespace Operation

/-- The edges that undoing the operation puts back have the property. -/
def PutsBack (P : Edge → Prop) (op : Operation) : Prop :=
  ∀ e, op = .removeEdge ⟨e, some true⟩ → P e

/-- So have those that performing it puts in. -/
def PutsIn (P : Edge → Prop) (op : Operation) : Prop := ∀ e, op = .addEdge ⟨e, false⟩ → P e

variable {b b' : Book} {op op' : Operation} {P : Edge → Prop}

theorem Effect.heldEdges_cases {out : Output} (h : Effect b op out op' b') (hop : op.PutsIn P) :
    (∀ e ∈ b'.store.heldEdges, e ∈ b.store.heldEdges ∨ P e) ∧
      op'.PutsBack (· ∈ b.store.heldEdges) := by
  cases h with
  | @addEdge e _ =>
    refine ⟨?_, nofun⟩
    intro e' he'
    rcases List.mem_append.mp he' with hheld | hnew
    · exact .inl hheld
    · rw [List.mem_singleton.mp hnew]
      exact .inr (hop e rfl)
  | @removeEdge e =>
    refine ⟨fun e' he' => .inl (List.mem_filter.mp he').1, ?_⟩
    intro e' heq
    simp only [removeEdge.injEq, RemoveEdge.mk.injEq, Option.some.injEq] at heq
    obtain ⟨rfl, hheld⟩ := heq
    exact of_decide_eq_true hheld
  | addExpense => exact ⟨fun e' he' => .inl he', nofun⟩
  | removeExpense => exact ⟨fun e' he' => .inl he', nofun⟩
  | step => exact ⟨fun e' he' => .inl he', nofun⟩

theorem Reversal.heldEdges_cases (hc : b.store.Complete) (hop : op.RestoresProperly)
    (hP : op.PutsBack P) (h : Reversal b op op' b') :
    ∀ e ∈ b'.store.heldEdges, e ∈ b.store.heldEdges ∨ P e := by
  intro e he
  cases h with
  | addEdge => exact .inl (List.mem_filter.mp he).1
  | removeEdge_missed => exact .inl he
  | @removeEdge e' =>
    rcases Store.mem_heldEdges_restoreEdge.mp he with hheld | rfl
    · exact .inl hheld
    · exact .inr (hP e rfl)
  | addExpense => exact .inl he
  | removeExpense hs =>
    obtain ⟨-, rfl⟩ := (hc.insertExpense_eq_ok_iff hop).mp hs
    exact .inl he
  | step => exact .inl he

end Operation

namespace Journal
variable {P Q : Edge → Prop} {j j' : Journal} {b b' : Book} {ok : Bool}

theorem Attempt.heldEdges_cases (hc : b.store.Complete) (h : Attempt (·.PutsIn Q) j b ok j' b') :
    (∀ e ∈ b'.store.heldEdges, e ∈ b.store.heldEdges ∨ ok = true ∧ Q e) ∧
      ∀ op ∈ j'.performed, op ∈ j.performed ∨ op.PutsBack (· ∈ b.store.heldEdges) := by
  cases h with
  | refused n => exact ⟨fun e he => .inl he, fun op hop => .inl hop⟩
  | performed hp hperf =>
    obtain ⟨hedges, hback⟩ := (Operation.effect_of_perform hc hperf).heldEdges_cases hp
    refine ⟨fun e he => (hedges e he).imp_right fun hQ => ⟨rfl, hQ⟩, ?_⟩
    intro op hop
    rcases List.mem_cons.mp hop with rfl | hop
    · exact .inr hback
    · exact .inl hop

/-- Undoing brings in no edge but those that it puts back, however far it gets. -/
theorem heldEdges_reverseAll {ops : List Operation} (ho : b.store.Orderly)
    (hops : ∀ op ∈ ops, op.RestoresProperly) (hP : ∀ op ∈ ops, op.PutsBack P)
    (hb : ∀ e ∈ b.store.heldEdges, P e) : ∀ e ∈ (reverseAll ops b).2.store.heldEdges, P e := by
  induction ops generalizing b with
  | nil => exact hb
  | cons op ops ih =>
    obtain ⟨hop, hrest⟩ := List.forall_mem_cons.mp hops
    obtain ⟨hPop, hPrest⟩ := List.forall_mem_cons.mp hP
    cases hrev : op.reverse b with
    | mk answer rest =>
      obtain ⟨op', b'⟩ := rest
      cases answer with
      | ok u =>
        simp only [reverseAll, hrev]
        have hr := Operation.reversal_of_reverse ho.toComplete hrev
        apply ih (hr.orderly ho hop) hrest hPrest
        intro e he
        exact (hr.heldEdges_cases ho.toComplete hop hPop e he).elim (hb e) id
      | error f =>
        obtain ⟨-, rfl⟩ := Operation.reverse_error hrev
        simp only [reverseAll, hrev]
        exact hb

end Journal

namespace Request
variable {r : Request}

theorem putsIn_of_resolve {s : Store} {op : Operation} (h : r.resolve s = .ok op) :
    op.PutsIn fun e => r.adds = true ∧ r.edge = e := by
  rintro e rfl
  have hop := operation_of_resolve h
  unfold operation at hop
  split at hop
  · rename_i hadds
    cases hop
    exact ⟨hadds, rfl⟩
  · cases hop

/-- The requests that put an edge in are those of its sender. -/
theorem eq_send_or_accept {e : Edge} (hadds : r.adds = true) (hedge : r.edge = e) :
    r = .send e.sender e.target ∨ r = .accept e.target e.sender := by
  subst hedge
  cases r with
  | send sender target => exact .inl rfl
  | accept requester accepter => exact .inr rfl
  | reject sender target => cases hadds
  | unfriend user friend => cases hadds

end Request

namespace Session

/-- The step makes the request, through a journal or on the command line. -/
def Step.Makes (r : Request) : Step → Prop
  | .request r' _ => r' = r
  | .commandLine args => ∃ i, CommandLine.read args = .ok i ∧ i.command = .request r
  | _ => False

/-- The step makes the request, which succeeds and puts the edge in. -/
structure Inserts (now : Amount) (s : Session) (step : Step) (r : Request) (e : Edge) : Prop where
  makes : step.Makes r
  succeeds : (s.step now step).1.isOk = true
  missing : e ∉ s.book.store.heldEdges
  stored : e ∈ (s.step now step).2.book.store.heldEdges

/-- The step goes back to the sender of the edge. -/
def Grants (now : Amount) (s : Session) (step : Step) (e : Edge) : Prop :=
  s.Inserts now step (.send e.sender e.target) e ∨ s.Inserts now step (.accept e.target e.sender) e

/-- All edges that are stored, and those that rollbacks would put back, have the property. -/
structure Confined (s : Session) (P : Edge → Prop) : Prop where
  store : ∀ e ∈ s.book.store.heldEdges, P e
  journals : ∀ name, ∀ op ∈ (s.journal name).performed, op.PutsBack P

variable {now : Amount} {s : Session} {P Q : Edge → Prop}

@[simp] theorem isOk_stopped {α : Type} (x : Except Stop α) : (stopped x).isOk = x.isOk := by
  cases x <;> rfl

@[simp] theorem isOk_map {ε α β : Type} (x : Except ε α) (f : α → β) : (x.map f).isOk = x.isOk := by
  cases x <;> rfl

theorem Inserts.grants {step : Step} {r : Request} {e : Edge} (h : s.Inserts now step r e)
    (hadds : r.adds = true) (hedge : r.edge = e) : s.Grants now step e := by
  rcases Request.eq_send_or_accept hadds hedge with rfl | rfl
  · exact .inl h
  · exact .inr h

namespace Confined

theorem mono (h : s.Confined P) (hPQ : ∀ e, P e → Q e) : s.Confined Q where
  store e he := hPQ e (h.store e he)
  journals name op hop e he := hPQ e (h.journals name op hop e he)

theorem removeJournal (h : s.Confined P) (name : String) : (s.removeJournal name).Confined P where
  store := h.store
  journals other := by
    rw [journal_removeJournal]
    split
    · exact List.forall_mem_nil _
    · exact h.journals other

variable (ho : s.Orderly) (h : s.Confined P)
include ho h

theorem withJournal {α : Type} (call : Journal → Book → Except Stop α × Journal × Book)
    (reply : α → Reply)
    (hcall : ∀ j, Journal.Attempt (·.PutsIn Q) j s.book (call j s.book).1.isOk (call j s.book).2.1
      (call j s.book).2.2) (name : Option String) :
    (∀ e ∈ (s.withJournal name call reply).2.book.store.heldEdges,
      P e ∨ e ∉ s.book.store.heldEdges ∧ (s.withJournal name call reply).1.isOk = true ∧ Q e) ∧
    ∀ other, ∀ op ∈ ((s.withJournal name call reply).2.journal other).performed, op.PutsBack P := by
  have hedges (j : Journal) : ∀ e ∈ (call j s.book).2.2.store.heldEdges,
      P e ∨ e ∉ s.book.store.heldEdges ∧ (call j s.book).1.isOk = true ∧ Q e := by
    intro e he
    by_cases hheld : e ∈ s.book.store.heldEdges
    · exact .inl (h.store e hheld)
    · have hnew := ((hcall j).heldEdges_cases ho.store.toComplete).1 e he
      exact .inr ⟨hheld, hnew.resolve_left hheld⟩
  cases name with
  | none =>
    simp only [Session.withJournal, isOk_stopped, isOk_map]
    exact ⟨hedges .empty, h.journals⟩
  | some name =>
    simp only [Session.withJournal, isOk_stopped, isOk_map]
    refine ⟨hedges (s.journal name), ?_⟩
    intro other op hop
    have hset : ((s.setJournal name (call (s.journal name) s.book).2.1).setBook
        (call (s.journal name) s.book).2.2).journal other = _ := journal_setJournal _
    rw [hset] at hop
    split at hop
    · have hcases := ((hcall (s.journal name)).heldEdges_cases ho.store.toComplete).2 op hop
      rcases hcases with hold | hnew
      · exact h.journals name op hold
      · exact fun e he => h.store e (hnew e he)
    · exact h.journals other op hop

/-- A call that has nothing to do with edges. -/
theorem withJournal_ledger {α : Type} (call : Journal → Book → Except Stop α × Journal × Book)
    (reply : α → Reply)
    (hcall : ∀ j, Journal.Attempt (·.PutsIn fun _ => False) j s.book (call j s.book).1.isOk
      (call j s.book).2.1 (call j s.book).2.2) (name : Option String) :
    (s.withJournal name call reply).2.Confined P := by
  obtain ⟨hedges, hback⟩ := h.withJournal ho call reply hcall name
  exact ⟨fun e he => (hedges e he).resolve_right fun hnew => hnew.2.2, hback⟩

theorem addExpense (actor : String) (e : Expense) (journal : Option String) :
    (s.withJournal journal (Ledger.add actor e) (.answer ∘ .added)).2.Confined P :=
  h.withJournal_ledger ho _ _ (fun _ => Journal.attempt_add nofun) journal

theorem removeExpense (actor : String) (id : Id) (journal : Option String) :
    (s.withJournal journal (fun j b => orStopped (Ledger.remove actor id j b))
      (.answer ∘ .removed)).2.Confined P := by
  apply h.withJournal_ledger ho
  intro j
  rw [orStopped, isOk_orStop]
  exact Journal.attempt_remove nofun

theorem request (r : Request) (journal : Option String) :
    (s.step now (.request r journal)).2.Confined fun e =>
      P e ∨ s.Grants now (.request r journal) e := by
  have hcall (j : Journal) : Journal.Attempt (·.PutsIn fun e => r.adds = true ∧ r.edge = e) j
      s.book (orStopped (r.run j s.book)).1.isOk (r.run j s.book).2.1 (r.run j s.book).2.2 := by
    rw [orStopped, isOk_orStop]
    exact Journal.attempt_request fun _ hop => r.putsIn_of_resolve hop
  obtain ⟨hedges, hback⟩ :=
    h.withJournal ho (fun j b => orStopped (r.run j b)) (fun _ => .done) hcall journal
  refine ⟨?_, fun name op hop e he => .inl (hback name op hop e he)⟩
  intro e he
  apply (hedges e he).imp_right
  rintro ⟨hmissing, hok, hadds, hedge⟩
  exact Inserts.grants ⟨rfl, hok, hmissing, he⟩ hadds hedge

omit h in
/-- A request on the command line does what it does without a journal. -/
theorem step_commandLine (now : Amount) {args : List String} {i : Invocation} {r : Request}
    (hread : CommandLine.read args = .ok i) (hi : i.command = .request r) :
    (s.step now (.commandLine args)).2 = (s.step now (.request r none)).2 ∧
      (s.step now (.commandLine args)).1.isOk = (s.step now (.request r none)).1.isOk := by
  obtain ⟨ho', -⟩ := (ho.advance_request r .empty).orderly ho.store (List.forall_mem_nil _)
  simp only [Session.step, hread, hi, Command.run, Command.runRequest, Session.withJournal,
    orStopped, isOk_stopped, isOk_map, isOk_orStop]
  cases hrun : r.run .empty s.book with
  | mk answer rest =>
    obtain ⟨j, b⟩ := rest
    rw [hrun] at ho'
    cases answer with
    | error f => exact ⟨rfl, rfl⟩
    | ok u =>
      simp only [Friends.statusesOf_eq ho'.toComplete]
      exact ⟨trivial, rfl⟩

theorem command (args : List String) : (s.step now (.commandLine args)).2.Confined fun e =>
    P e ∨ s.Grants now (.commandLine args) e := by
  cases hread : CommandLine.read args with
  | error f =>
    simp only [Session.step, hread]
    exact h.mono fun e => .inl
  | ok i =>
    cases hi : i.command with
    | request r =>
      obtain ⟨hsame, hok⟩ := step_commandLine ho now hread hi
      rw [hsame]
      apply (h.request ho r none).mono
      have hmakes {r' : Request} {e : Edge} (hins : s.Inserts now (.request r none) r' e) :
          s.Inserts now (.commandLine args) r' e := by
        obtain ⟨rfl, hisOk, hmissing, hstored⟩ := hins
        exact ⟨⟨i, hread, hi⟩, hok ▸ hisOk, hmissing, hsame ▸ hstored⟩
      exact fun e => Or.imp_right (Or.imp hmakes hmakes)
    | add actor draft =>
      simp only [Session.step, hread, hi]
      exact (h.addExpense ho actor (draft.expense now) none).mono fun e => .inl
    | remove actor id =>
      simp only [Session.step, hread, hi]
      exact (h.removeExpense ho actor id none).mono fun e => .inl
    | _ =>
      simp only [Session.step, hread, hi]
      exact h.mono fun e => .inl

theorem step {step : Step} (hstep : step.isControlled = true) :
    (s.step now step).2.Confined fun e => P e ∨ s.Grants now step e := by
  by_cases hread : step.isRead = true
  · rw [step_of_isRead hread]
    exact h.mono fun e => .inl
  · cases step with
    | request r journal => exact h.request ho r journal
    | addExpense actor e journal => exact (h.addExpense ho actor e journal).mono fun e => .inl
    | removeExpense actor id journal =>
      exact (h.removeExpense ho actor id journal).mono fun e => .inl
    | journalCommit name => exact (h.removeJournal name).mono fun e => .inl
    | journalDrop name => exact (h.removeJournal name).mono fun e => .inl
    | journalRollback name =>
      refine Confined.mono ?_ fun e => .inl
      exact ⟨Journal.heldEdges_reverseAll ho.store (ho.journals name) (h.journals name) h.store,
        (h.removeJournal name).journals⟩
    | commandLine args => exact h.command ho args
    | _ => exact absurd hstep hread

end Confined

/-! ### Runs -/

/-- Some step of the run makes the request, which succeeds and puts the edge in. -/
def Inserted (steps : List (Amount × Step)) (r : Request) (e : Edge) : Prop :=
  ∃ before x rest, steps = before ++ x :: rest ∧ (fresh.after before).Inserts x.1 x.2 r e

/-- Some step of the run goes back to the sender of the edge. -/
def Granted (steps : List (Amount × Step)) (e : Edge) : Prop :=
  Inserted steps (.send e.sender e.target) e ∨ Inserted steps (.accept e.target e.sender) e

variable {steps steps' : List (Amount × Step)} {r : Request} {e : Edge}

theorem Inserted.append (h : Inserted steps r e) : Inserted (steps ++ steps') r e := by
  obtain ⟨before, x, rest, rfl, hins⟩ := h
  exact ⟨before, x, rest ++ steps', by simp, hins⟩

theorem granted_concat {x : Amount × Step} : Granted (steps ++ [x]) e ↔
    Granted steps e ∨ (fresh.after steps).Grants x.1 x.2 e := by
  unfold Granted Grants Inserted
  rw [exists_moment_concat, exists_moment_concat]
  exact or_or_or_comm

theorem orderly_after (hsteps : ∀ x ∈ steps, x.2.isControlled = true) :
    (fresh.after steps).Orderly := by
  have hfresh : fresh.Orderly := ⟨Friends.orderly_fresh, fun _ => List.forall_mem_nil _⟩
  exact hfresh.after hsteps

theorem confined_after (hsteps : ∀ x ∈ steps, x.2.isControlled = true) :
    (fresh.after steps).Confined (Granted steps) := by
  induction steps using List.reverseRecOn with
  | nil => exact ⟨List.forall_mem_nil _, fun _ => List.forall_mem_nil _⟩
  | append_singleton steps x ih =>
    obtain ⟨hbefore, hlast⟩ := List.forall_mem_append.mp hsteps
    have hx := List.forall_mem_singleton.mp hlast
    rw [after_concat]
    exact ((ih hbefore).step (orderly_after hbefore) hx).mono fun e => granted_concat.mpr

/-! ### Friends -/

theorem refusal?_of_request {journal : Option String} (ho : s.Orderly)
    (hmissing : e ∉ s.book.store.heldEdges)
    (hstored : e ∈ (s.step now (.request r journal)).2.book.store.heldEdges) :
    r.refusal? s.book.store = none := by
  cases hrefusal : r.refusal? s.book.store with
  | none => rfl
  | some f =>
    have hrun (j : Journal) := Request.run_of_refusal? (j := j) ho.store.toComplete hrefusal
    obtain ⟨j, hbook⟩ : ∃ j, (s.step now (.request r journal)).2.book = (r.run j s.book).2.2 :=
      book_withJournal journal
    rw [hbook, hrun] at hstored
    exact absurd hstored hmissing

/-- A request that puts an edge in was not refused. -/
theorem Inserts.refusal?_eq_none {step : Step} (ho : s.Orderly) (h : s.Inserts now step r e) :
    r.refusal? s.book.store = none := by
  obtain ⟨hmakes, -, hmissing, hstored⟩ := h
  cases step with
  | request r' journal =>
    cases hmakes
    exact refusal?_of_request ho hmissing hstored
  | commandLine args =>
    obtain ⟨i, hread, hi⟩ := hmakes
    rw [(Confined.step_commandLine ho now hread hi).1] at hstored
    exact refusal?_of_request ho hmissing hstored
  | _ => cases hmakes

/-- Of the two edges between users, the one that came first was asked for. -/
theorem asked_of_stored (hsteps : ∀ x ∈ steps, x.2.isControlled = true)
    (he : e ∈ (fresh.after steps).book.store.heldEdges) :
    Inserted steps (.send e.sender e.target) e ∨
      Inserted steps (.send e.target e.sender) e.reverse := by
  induction hn : steps.length using Nat.strongRecOn generalizing steps e with
  | ind n ih =>
    rcases (confined_after hsteps).store e he with hsent | haccepted
    · exact .inl hsent
    · obtain ⟨before, x, rest, rfl, hins⟩ := haccepted
      obtain ⟨hbefore, -⟩ := List.forall_mem_append.mp hsteps
      -- an accepted request was there to be accepted
      have hrefusal := hins.refusal?_eq_none (orderly_after hbefore)
      have hpending : e.reverse ∈ (fresh.after before).book.store.heldEdges := by
        simp only [Request.refusal?, ite_eq_left_iff, reduceCtorEq, imp_false, not_not] at hrefusal
        exact hrefusal.1
      have hshorter : before.length < n := by
        rw [← hn, List.length_append, List.length_cons]
        omega
      exact (ih _ hshorter hbefore hpending rfl).symm.imp .append .append

/-- What is true of edges after the steps. -/
structure Consented (steps : List (Amount × Step)) : Prop where
  /-- The sender of an edge has asked, or agreed to have been asked. -/
  edges : ∀ a b, ⟨a, b⟩ ∈ (fresh.after steps).book.store.heldEdges →
    Inserted steps (.send a b) ⟨a, b⟩ ∨ Inserted steps (.accept b a) ⟨a, b⟩
  /-- Of two friends, one has asked, and the other one has asked or agreed. -/
  friends : ∀ a b users, Friends.friendsOf (fresh.after steps).book.store a = .ok users →
    b ∈ users →
      Inserted steps (.send a b) ⟨a, b⟩ ∧
          (Inserted steps (.send b a) ⟨b, a⟩ ∨ Inserted steps (.accept a b) ⟨b, a⟩) ∨
        Inserted steps (.send b a) ⟨b, a⟩ ∧
          (Inserted steps (.send a b) ⟨a, b⟩ ∨ Inserted steps (.accept b a) ⟨a, b⟩)
  /-- After a rollback, and while it is under way, each edge is one that there was before it. -/
  rollbacks : ∀ before now name rest undone left,
    steps = before ++ (now, .journalRollback name) :: rest →
    ((fresh.after before).journal name).performed = undone ++ left →
      ∀ e ∈ (Journal.reverseAll undone (fresh.after before).book).2.store.heldEdges,
        ∃ earlier, earlier <+: before ∧ e ∈ (fresh.after earlier).book.store.heldEdges

theorem exists_earlier_of_granted (h : Granted steps e) :
    ∃ earlier, earlier <+: steps ∧ e ∈ (fresh.after earlier).book.store.heldEdges := by
  have hmoment {r : Request} (hins : Inserted steps r e) :
      ∃ earlier, earlier <+: steps ∧ e ∈ (fresh.after earlier).book.store.heldEdges := by
    obtain ⟨before, x, rest, rfl, hins⟩ := hins
    refine ⟨before ++ [x], ⟨rest, by simp⟩, ?_⟩
    rw [after_concat]
    exact hins.stored
  exact h.elim hmoment hmoment

/-- Whatever is asked, accepted, turned down and undone, in whatever order and through
however many journals: no edge without the consent of its sender. -/
theorem edges_consented {steps : List (Amount × Step)}
    (hsteps : ∀ x ∈ steps, x.2.isControlled = true) : Consented steps := by
  have hedges (a b : String) (he : ⟨a, b⟩ ∈ (fresh.after steps).book.store.heldEdges) :=
    (confined_after hsteps).store ⟨a, b⟩ he
  refine ⟨hedges, ?_, ?_⟩
  · intro a b users husers hb
    have hc := (orderly_after hsteps).store.toComplete
    obtain ⟨users', husers', hmem⟩ := Friends.friendsOf_eq_ok hc a
    cases husers.symm.trans husers'
    obtain ⟨hout, hin⟩ := (hmem b).mp hb
    rcases asked_of_stored hsteps hout with hsent | hsent
    · exact .inl ⟨hsent, hedges b a hin⟩
    · exact .inr ⟨hsent, hedges a b hout⟩
  · rintro before now name rest undone left rfl hsplit e he
    obtain ⟨hbefore, -⟩ := List.forall_mem_append.mp hsteps
    have ho := orderly_after hbefore
    have hconfined := confined_after hbefore
    have hundone : ∀ op ∈ undone, op ∈ ((fresh.after before).journal name).performed := by
      intro op hop
      rw [hsplit]
      exact List.mem_append_left _ hop
    apply exists_earlier_of_granted
    exact Journal.heldEdges_reverseAll ho.store (fun op hop => ho.journals name op (hundone op hop))
      (fun op hop => hconfined.journals name op (hundone op hop)) hconfined.store e he

/-- Alice asks bob and withdraws it, bob asks alice, and alice undoes her withdrawal: they
are friends, although neither has accepted. -/
def crossedAsking : List (Amount × Step) :=
  [(1, .request (.send "alice" "bob") none), (2, .request (.reject "alice" "bob") (some "j")),
    (3, .request (.send "bob" "alice") none), (4, .journalRollback "j")]

theorem crossed_asking_consented :
    (∀ x ∈ crossedAsking, x.2.isControlled = true) ∧
      Friends.friendsOf (fresh.after crossedAsking).book.store "alice" = .ok ["bob"] ∧
      Consented crossedAsking := by
  have hsteps : ∀ x ∈ crossedAsking, x.2.isControlled = true := by decide
  exact ⟨hsteps, by decide +kernel, edges_consented hsteps⟩

end Session
end FriendLedger
