import FriendLedger.Proofs.CommandLine.Calls
import FriendLedger.Proofs.Friends.Relationships

/-! The command line refines the controllers. An accepted line does what the call does that
it asks for, and answers the same; a change of a relationship answers, in place of nothing,
the status that it has led to. -/

namespace FriendLedger

set_option autoImplicit false

/-! ### Calls and their journals -/

section Journals
variable {b : Book} {j j' : Journal}

/-- A call that fails has at most used up ids. -/
theorem Journal.Attempt.store_eq {P : Operation → Prop} {b' : Book}
    (h : Journal.Attempt P j b false j' b') : b'.store = b.store := by
  cases h
  rfl

/-- What is recorded in a journal has no influence on a call through it. -/
theorem Journal.perform_eq {Op Out : Type} [Reversible Op Out] (j j' : Journal)
    (wrap : Op → Operation) (op : Op) :
    (j.perform wrap op b).1 = (j'.perform wrap op b).1 ∧
      (j.perform wrap op b).2.2 = (j'.perform wrap op b).2.2 := by
  simp only [Journal.perform]
  split <;> exact ⟨rfl, rfl⟩

theorem Request.run_of_resolve {r : Request} {op : Operation} (h : r.resolve b.store = .ok op)
    (j : Journal) : r.run j b = ((j.perform id op b).1.map fun _ => (), (j.perform id op b).2) := by
  rw [run, h]
  dsimp only
  split <;> rename_i heq <;> rw [heq] <;> rfl

theorem Request.run_eq (r : Request) (j j' : Journal) :
    (r.run j b).1 = (r.run j' b).1 ∧ (r.run j b).2.2 = (r.run j' b).2.2 := by
  cases h : r.resolve b.store with
  | error f => simp only [run, h, and_self]
  | ok op =>
    obtain ⟨hanswer, hbook⟩ := Journal.perform_eq (b := b) j j' id op
    rw [run_of_resolve h, run_of_resolve h, hanswer]
    exact ⟨rfl, hbook⟩

theorem Ledger.add_eq (actor : String) (e : Expense) (j j' : Journal) :
    (add actor e j b).1 = (add actor e j' b).1 ∧ (add actor e j b).2.2 = (add actor e j' b).2.2 := by
  obtain ⟨hanswer, hbook⟩ := Journal.perform_eq (b := b) j j' .addExpense (.new e)
  simp only [add]
  split
  · split
    · exact ⟨rfl, rfl⟩
    · exact ⟨congrArg orStop hanswer, hbook⟩
  · exact ⟨rfl, rfl⟩

theorem Ledger.remove_eq (actor : String) (id : Id) (j j' : Journal) :
    (remove actor id j b).1 = (remove actor id j' b).1 ∧
      (remove actor id j b).2.2 = (remove actor id j' b).2.2 := by
  simp only [remove]
  split
  · exact Journal.perform_eq j j' .removeExpense (.new id)
  · exact ⟨rfl, rfl⟩

end Journals

namespace Session

theorem withJournal_eq {α : Type} {call : Journal → Book → Except Stop α × Journal × Book}
    {reply : α → Reply} {s : Session} (hcall : ∀ j j', (call j s.book).1 = (call j' s.book).1 ∧
      (call j s.book).2.2 = (call j' s.book).2.2) (name : Option String) :
    (s.withJournal name call reply).1 = (s.withJournal none call reply).1 ∧
      (s.withJournal name call reply).2.book = (s.withJournal none call reply).2.book := by
  cases name with
  | none => exact ⟨rfl, rfl⟩
  | some name =>
    obtain ⟨hanswer, hbook⟩ := hcall (s.journal name) .empty
    exact ⟨congrArg (stopped ∘ Except.map reply) hanswer, hbook⟩

/-- What a line answers when the call that it makes answers `reply`. -/
def Step.report : Step → Except Refusal Reply → Except Refusal Reply
  | .request r _, .ok _ => .ok (.answer (.relation r.subject [(r.other, r.outcome)]))
  | _, reply => reply

/-- In this session the line does what the call does, which has any journal. -/
structure Refines (s : Session) (now : Amount) (args : List String)
    (call : Option String → Step) : Prop where
  /-- The line has a journal of its own, of which nothing stays. -/
  session : (s.step now (.commandLine args)).2 = (s.step now (call none)).2
  journal : ∀ name, (s.step now (call name)).1 = (s.step now (call none)).1 ∧
    (s.step now (call name)).2.book = (s.step now (call none)).2.book
  reply : (s.step now (.commandLine args)).1 = (call none).report (s.step now (call none)).1
  refused : ∀ e, (s.step now (.commandLine args)).1 = .error e →
    (s.step now (.commandLine args)).2.book.store = s.book.store
  status : ∀ r reply, call none = .request r none → (s.step now (.commandLine args)).1 = .ok reply →
    Friends.statusesOf (s.step now (.commandLine args)).2.book.store r.subject [r.other] =
      .ok [(r.other, r.outcome)]

/-- The stores of a run, the first one included. -/
def stores (s : Session) : List (Amount × Step) → List Store
  | [] => [s.book.store]
  | (now, step) :: steps => s.book.store :: (s.step now step).2.stores steps

/-! ### One line -/

section Line
variable {s : Session} {now : Amount}

theorem book_call (c : Command) (name : Option String) :
    (s.step now (c.call now name)).1 = (s.step now (c.call now none)).1 ∧
      (s.step now (c.call now name)).2.book = (s.step now (c.call now none)).2.book := by
  cases c with
  | request r =>
    refine withJournal_eq (fun j j' => ?_) name
    obtain ⟨hanswer, hbook⟩ := r.run_eq (b := s.book) j j'
    exact ⟨congrArg orStop hanswer, hbook⟩
  | add actor draft => exact withJournal_eq (fun j j' => Ledger.add_eq actor _ j j') name
  | remove actor id =>
    refine withJournal_eq (fun j j' => ?_) name
    obtain ⟨hanswer, hbook⟩ := Ledger.remove_eq (b := s.book) actor id j j'
    exact ⟨congrArg orStop hanswer, hbook⟩
  | _ => exact ⟨rfl, rfl⟩

theorem stopped_orStop {α β : Type} (x : Except Failure α) (f : α → β) :
    stopped ((orStop x).map f) = failed (x.map f) := by
  cases x <;> rfl

theorem stopped_orStop_map {α β γ : Type} (x : Except Failure α) (f : α → β) (g : β → γ) :
    stopped ((orStop (x.map f)).map g) = failed (x.map (g ∘ f)) := by
  cases x <;> rfl

/-- All other calls answer as they are made. -/
theorem step_call {c : Command} (hc : ∀ r, c ≠ .request r) : s.step now (c.call now none) =
    (stopped ((c.run now s.book).1.map .answer), s.setBook (c.run now s.book).2) := by
  cases c with
  | request r => exact absurd rfl (hc r)
  | list user =>
    rw [Command.run, stopped_orStop]
    rfl
  | status subject candidates =>
    rw [Command.run, stopped_orStop_map]
    rfl
  | add actor draft =>
    rcases hadd : Ledger.add actor (draft.expense now) .empty s.book with ⟨answer, j, b⟩
    simp only [Command.call, Command.run, step, withJournal, hadd]
    cases answer <;> rfl
  | remove actor id =>
    rcases hremove : Ledger.remove actor id .empty s.book with ⟨answer, j, b⟩
    simp only [Command.call, Command.run, step, withJournal, orStopped, hremove]
    cases answer <;> rfl
  | expense actor id =>
    rw [Command.run, stopped_orStop_map]
    rfl
  | between actor other =>
    rw [Command.run, stopped_orStop_map]
    rfl
  | balance actor =>
    simp only [Command.call, Command.run, step]
    cases Ledger.balances s.book.store actor <;> rfl

/-- Such a call changes no row when it fails. -/
theorem run_refused {b : Book} {c : Command} (hc : ∀ r, c ≠ .request r) {e : Stop}
    (he : (c.run now b).1 = .error e) : (c.run now b).2.store = b.store := by
  cases c with
  | request r => exact absurd rfl (hc r)
  | add actor draft =>
    have hattempt := @Journal.attempt_add (fun _ => True) .empty b actor (draft.expense now) trivial
    rcases hadd : Ledger.add actor (draft.expense now) .empty b with ⟨answer, j, b'⟩
    rw [hadd] at hattempt
    simp only [Command.run, hadd] at he ⊢
    cases answer with
    | ok id => cases he
    | error e' => exact hattempt.store_eq
  | remove actor id =>
    have hattempt := @Journal.attempt_remove (fun _ => True) .empty b actor id trivial
    rcases hremove : Ledger.remove actor id .empty b with ⟨answer, j, b'⟩
    rw [hremove] at hattempt
    simp only [Command.run, hremove] at he ⊢
    cases answer with
    | ok x => cases he
    | error f => exact hattempt.store_eq
  | _ => rfl

section Accepted
variable {args : List String} {inv : Invocation} (h : CommandLine.read args = .ok inv)
include h

theorem step_commandLine : s.step now (.commandLine args) =
    (stopped ((inv.command.run now s.book).1.map .answer),
      s.setBook (inv.command.run now s.book).2) := by
  rw [step, h]

/-- A request that is refused changes nothing, whoever makes it. -/
theorem refines_of_refusal? {r : Request} (hinv : inv.command = .request r)
    (hc : s.book.store.Complete) {f : Failure} (hf : r.refusal? s.book.store = some f) :
    s.Refines now args (inv.command.call now) := by
  have hrun (j : Journal) := Request.run_of_refusal? (j := j) hc hf
  have hline : s.step now (.commandLine args) = (.error (.stop (.failure f)), s) := by
    rw [step_commandLine h, hinv]
    simp only [Command.run, Command.runRequest, hrun]
    rfl
  have hcall : s.step now (inv.command.call now none) = (.error (.stop (.failure f)), s) := by
    rw [hinv]
    simp only [Command.call, step, withJournal, hrun]
    rfl
  refine ⟨?_, book_call inv.command, ?_, ?_, ?_⟩
  · rw [hline, hcall]
  · rw [hline, hcall, hinv]
    rfl
  · intro e he
    rw [hline]
  · intro r' reply hr' hreply
    rw [hline] at hreply
    cases hreply

/-- A request that goes through leads to the same store, and to the status that is reported. -/
theorem refines_of_refusal?_eq_none {r : Request} (hinv : inv.command = .request r)
    (ho : s.book.store.Orderly) (hf : r.refusal? s.book.store = none) :
    s.Refines now args (inv.command.call now) := by
  have hrun (j : Journal) := Request.run_of_refusal?_eq_none (j := j) ho.toKeyed hf
  have hstatus := (Request.changes_changed ho hf).acting
  have hline : s.step now (.commandLine args) =
      (.ok (.answer (.relation r.subject [(r.other, r.outcome)])),
        s.setBook { s.book with store := r.changed s.book.store }) := by
    rw [step_commandLine h, hinv]
    simp only [Command.run, Command.runRequest, hrun, hstatus]
    rfl
  have hcall : s.step now (inv.command.call now none) =
      (.ok .done, s.setBook { s.book with store := r.changed s.book.store }) := by
    rw [hinv]
    simp only [Command.call, step, withJournal, hrun]
    rfl
  refine ⟨?_, book_call inv.command, ?_, ?_, ?_⟩
  · rw [hline, hcall]
  · rw [hline, hcall, hinv]
    rfl
  · intro e he
    rw [hline] at he
    cases he
  · intro r' reply hr' hreply
    rw [hinv] at hr'
    cases hr'
    rw [hline]
    exact hstatus

theorem refines (ho : s.book.store.Orderly) : s.Refines now args (inv.command.call now) := by
  cases hc : inv.command with
  | request r =>
    rw [← hc]
    cases hf : r.refusal? s.book.store with
    | some f => exact refines_of_refusal? h hc ho.toComplete hf
    | none => exact refines_of_refusal?_eq_none h hc ho hf
  | _ =>
    have hother : ∀ r, inv.command ≠ .request r := by simp [hc]
    have hstep : s.step now (.commandLine args) = s.step now (inv.command.call now none) := by
      rw [step_commandLine h, step_call hother]
    rw [← hc]
    refine ⟨congrArg Prod.snd hstep, book_call inv.command, ?_, ?_, ?_⟩
    · rw [hstep, hc]
      rfl
    · intro e he
      rw [step_commandLine h] at he ⊢
      cases hrun : (inv.command.run now s.book).1 with
      | ok a =>
        rw [hrun] at he
        cases he
      | error e' => exact run_refused hother hrun
    · intro r reply hr
      rw [hc] at hr
      cases hr

end Accepted

end Line

/-! ### Runs -/

section Runs
variable {s t : Session} {now : Amount}

theorem book_step {args : List String} {inv : Invocation} (h : CommandLine.read args = .ok inv) :
    (s.step now (.commandLine args)).2.book = (inv.command.run now s.book).2 := by
  rw [step_commandLine h]
  rfl

/-- The book after a line is the one after its call, whoever else has a journal. -/
theorem book_eq_of_call {args : List String} {inv : Invocation}
    (h : CommandLine.read args = .ok inv) (ho : s.book.store.Orderly) (hbook : t.book = s.book)
    (journal : Option String) : (t.step now (inv.command.call now journal)).2.book =
      (s.step now (.commandLine args)).2.book := by
  have ht : t.Refines now args (inv.command.call now) := refines h (hbook ▸ ho)
  rw [(ht.journal journal).2, ← ht.session, book_step h, book_step h, hbook]

theorem orderly_commandLine {args : List String} {inv : Invocation}
    (h : CommandLine.read args = .ok inv) (ho : s.book.store.Orderly) :
    (s.step now (.commandLine args)).2.book.store.Orderly := by
  have hs : (Session.mk s.book [] []).Orderly := ⟨ho, fun _ => List.forall_mem_nil _⟩
  rw [book_step h]
  exact hs.command inv.command

/-- The step is the call that the line asks for, with one journal or another. -/
def Makes (line : Amount × List String) (step : Amount × Step) : Prop :=
  ∃ call journal, CommandLine.Asks line.1 line.2 call ∧ step = (line.1, call journal)

def lineSteps (lines : List (Amount × List String)) : List (Amount × Step) :=
  lines.map fun line => (line.1, .commandLine line.2)

/-- Lines and calls go through the same stores, from books that are the same. -/
theorem stores_eq (ho : s.book.store.Orderly) (hbook : t.book = s.book)
    {lines : List (Amount × List String)} {steps : List (Amount × Step)}
    (hlines : ∀ line ∈ lines, ∃ inv, CommandLine.read line.2 = .ok inv)
    (hsteps : List.Forall₂ Makes lines steps) : t.stores steps = s.stores (lineSteps lines) := by
  induction hsteps generalizing s t with
  | nil => rw [lineSteps, List.map_nil, stores, stores, hbook]
  | @cons line step lines steps hstep _ ih =>
    obtain ⟨now, args⟩ := line
    obtain ⟨call, journal, hasks, rfl⟩ := hstep
    obtain ⟨⟨inv, hread⟩, hrest⟩ := List.forall_mem_cons.mp hlines
    obtain rfl := hasks.unique (CommandLine.asks_of_read hread)
    rw [lineSteps, List.map_cons, stores, stores, hbook]
    have hbook' : (t.step now (inv.command.call now journal)).2.book =
        (s.step now (.commandLine args)).2.book := book_eq_of_call hread ho hbook journal
    exact congrArg _ (ih (orderly_commandLine hread ho) hbook' hrest)

/-- In an orderly store every accepted line asks for one call and does what this call does: it
leads to the same session and answers the same, a change of a relationship with the status
that it has led to, and one that fails changes no row. A run of lines goes through the same
stores as the calls that they ask for, in whatever journals these are recorded. -/
theorem command_line_refines (ho : s.book.store.Orderly) :
    (∀ now args inv, CommandLine.read args = .ok inv → ∃ call, CommandLine.Asks now args call ∧
      (∀ call', CommandLine.Asks now args call' → call' = call) ∧ s.Refines now args call) ∧
    ∀ lines steps, (∀ line ∈ lines, ∃ inv, CommandLine.read line.2 = .ok inv) →
      List.Forall₂ Makes lines steps → s.stores steps = s.stores (lineSteps lines) := by
  constructor
  · intro now args inv h
    have hasks : CommandLine.Asks now args (inv.command.call now) := CommandLine.asks_of_read h
    exact ⟨_, hasks, fun call' hcall' => hcall'.unique hasks, refines h ho⟩
  · intro lines steps hlines hsteps
    exact stores_eq ho rfl hlines hsteps

end Runs

def cab : Draft := ⟨"cab", -2, ⟨"DKK", by decide, by decide +kernel⟩, none, [⟨"bob", -2⟩]⟩

/-- Bob agrees to a request of alice, leaves her and adds the fare of his ride home. -/
def parting : List (Amount × List String) :=
  [(1, ["friends", "send", "alice", "bob"]), (2, ["friends", "accept", "alice", "bob"]),
    (3, ["friends", "unfriend", "--", "bob", "alice"]),
    (4, ["expenses", "add", "--share", "bob=-2", "--actor=bob", "--details", "cab", "--total", "-2",
      "--currency", "dkk"])]

def partingCalls : List (Amount × Step) :=
  [(1, .request (.send "alice" "bob") (some "j")), (2, .request (.accept "alice" "bob") none),
    (3, .request (.unfriend "bob" "alice") (some "j")), (4, .addExpense "bob" (cab.expense 4) none)]

theorem makes_parting : (∀ line ∈ parting, ∃ inv, CommandLine.read line.2 = .ok inv) ∧
    List.Forall₂ Makes parting partingCalls := by
  have hsend : CommandLine.read ["friends", "send", "alice", "bob"] =
      .ok ⟨none, .request (.send "alice" "bob")⟩ := by decide +kernel
  have haccept : CommandLine.read ["friends", "accept", "alice", "bob"] =
      .ok ⟨none, .request (.accept "alice" "bob")⟩ := by decide +kernel
  have hunfriend : CommandLine.read ["friends", "unfriend", "--", "bob", "alice"] =
      .ok ⟨none, .request (.unfriend "bob" "alice")⟩ := by decide +kernel
  have hadd : CommandLine.read ["expenses", "add", "--share", "bob=-2", "--actor=bob", "--details",
      "cab", "--total", "-2", "--currency", "dkk"] = .ok ⟨none, .add "bob" cab⟩ := by decide +kernel
  constructor
  · simp only [parting, List.forall_mem_cons]
    exact ⟨⟨_, hsend⟩, ⟨_, haccept⟩, ⟨_, hunfriend⟩, ⟨_, hadd⟩, List.forall_mem_nil _⟩
  · exact .cons ⟨_, some "j", CommandLine.asks_of_read hsend, rfl⟩
      (.cons ⟨_, none, CommandLine.asks_of_read haccept, rfl⟩
        (.cons ⟨_, some "j", CommandLine.asks_of_read hunfriend, rfl⟩
          (.cons ⟨_, none, CommandLine.asks_of_read hadd, rfl⟩ .nil)))

/-- The lines of the parting, and the first of them by itself. -/
theorem parting_refines : fresh.book.store.Orderly ∧
    (∃ call, CommandLine.Asks 1 ["friends", "send", "alice", "bob"] call ∧
      fresh.Refines 1 ["friends", "send", "alice", "bob"] call) ∧
    fresh.stores partingCalls = fresh.stores (lineSteps parting) := by
  obtain ⟨hline, hruns⟩ := command_line_refines (s := fresh) Friends.orderly_fresh
  obtain ⟨hreads, hmakes⟩ := makes_parting
  obtain ⟨inv, hread⟩ := hreads (1, ["friends", "send", "alice", "bob"]) List.mem_cons_self
  obtain ⟨call, hasks, -, hrefines⟩ := hline 1 _ inv hread
  exact ⟨Friends.orderly_fresh, ⟨call, hasks, hrefines⟩, hruns parting partingCalls hreads hmakes⟩

end Session
end FriendLedger
