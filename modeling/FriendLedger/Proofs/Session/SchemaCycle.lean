import FriendLedger.Proofs.Session.Invariant
import FriendLedger.Proofs.Store.TearDown

/-! The life cycle of the schema. A database in which no table is dropped by hand has all of
its tables and the record of the schema, or nothing at all. So every migration succeeds,
whatever rows are stored, and what is set up after a tearing down is a new database. -/

namespace FriendLedger

set_option autoImplicit false

namespace Store

/-- All tables are there and the schema is recorded, or there is nothing. -/
def AllOrNone (s : Store) : Prop := s.Complete ∧ s.recorded = true ∨ s = .blank

variable {s t : Store}

theorem eq_blank_of_sameTables (h : blank.SameTables t) : t = .blank := by
  have hedges : t.edges = none := by simpa [blank] using h.edges.symm
  have hdeals : t.deals = none := by simpa [blank] using h.deals.symm
  have hspendings : t.spendings = none := by simpa [blank] using h.spendings.symm
  have hrecorded : t.recorded = false := h.recorded.symm
  obtain ⟨edges, deals, spendings, recorded⟩ := t
  cases hedges
  cases hdeals
  cases hspendings
  cases hrecorded
  rfl

theorem AllOrNone.of_sameTables (h : s.AllOrNone) (hst : s.SameTables t) : t.AllOrNone := by
  rcases h with ⟨hcomplete, hrecorded⟩ | rfl
  · exact .inl ⟨hcomplete.of_sameTables hst, hst.recorded.symm.trans hrecorded⟩
  · exact .inr (eq_blank_of_sameTables hst)

/-! ### Migrations -/

/-- Tearing down leaves nothing, and it never fails. -/
theorem tearDown_of_allOrNone (h : s.AllOrNone) : s.tearDown = (.ok (), .blank) := by
  rcases h with ⟨hcomplete, hrecorded⟩ | rfl
  · rcases tearDown_cases hrecorded with ⟨hdown, -⟩ | ⟨gone, t, kept, -, -, hmissing, -⟩
    · exact hdown
    · cases hmissing.symm.trans (hcomplete.has t)
  · rfl

theorem allOrNone_setUp (h : s.AllOrNone) : s.setUp.AllOrNone := by
  rcases h with ⟨hcomplete, hrecorded⟩ | rfl
  · rw [setUp, if_pos hrecorded]
    exact .inl ⟨hcomplete, hrecorded⟩
  · exact .inl ⟨keyed_fresh.toComplete, rfl⟩

theorem migrate_of_allOrNone (h : s.AllOrNone) (direction : Direction) :
    (s.migrate direction).1 = .ok () ∧ (s.migrate direction).2.AllOrNone := by
  cases direction with
  | up => exact ⟨rfl, allOrNone_setUp h⟩
  | down =>
    rw [migrate, tearDown_of_allOrNone h]
    exact ⟨rfl, .inr rfl⟩

end Store

namespace Session

/-- Whatever an operation does, it keeps the tables. -/
theorem stable_allOrNone : Stable Store.AllOrNone fun _ => True where
  unused _ := trivial
  perform h _ hperf := ⟨h.of_sameTables (Operation.perform_filled hperf).2, trivial⟩
  reverse h _ hrev := ⟨h.of_sameTables (Operation.reverse_filled hrev).2, trivial⟩

def Step.dropsTable : Step → Bool
  | .dropTable _ => true
  | _ => false

section Steps
variable {s : Session} {now : Amount}

theorem satisfies_statement {call : Store → Except StoreFault Store}
    (hcall : ∀ t, call s.book.store = .ok t → s.book.store.SameTables t)
    (h : s.Satisfies Store.AllOrNone fun _ => True) :
    (s.statement call).2.Satisfies Store.AllOrNone fun _ => True := by
  rw [statement]
  split
  · rename_i t ht
    exact h.setBook (h.store.of_sameTables (hcall t ht))
  · exact h

theorem satisfies_step (h : s.Satisfies Store.AllOrNone fun _ => True) {step : Step}
    (hstep : step.dropsTable = false) :
    (s.step now step).2.Satisfies Store.AllOrNone fun _ => True := by
  cases step with
  | hold handle op => exact h.setHandle handle trivial
  | insertEdge e => exact satisfies_statement (fun _ ht => (Store.insertEdge_filled ht).2) h
  | insertDeal d => exact satisfies_statement (fun _ ht => (Store.insertDeal_filled ht).2) h
  | insertSpending p => exact satisfies_statement (fun _ ht => (Store.insertSpending_filled ht).2) h
  | dropTable table => cases hstep
  | migrate direction => exact h.setBook (Store.migrate_of_allOrNone h.store direction).2
  | _ => exact h.step stable_allOrNone trivial

theorem satisfies_run (h : s.Satisfies Store.AllOrNone fun _ => True)
    {steps : List (Amount × Step)} (hsteps : ∀ x ∈ steps, x.2.dropsTable = false) :
    (s.after steps).Satisfies Store.AllOrNone fun _ => True :=
  after_induction (·.Satisfies Store.AllOrNone fun _ => True) (·.dropsTable = false)
    (fun h hstep => satisfies_step h hstep) h hsteps

end Steps

/-- The same clients with another store. -/
def withStore (s : Session) (store : Store) : Session := s.setBook { s.book with store := store }

/-- How the schema comes and goes in a session. -/
structure Cycles (s : Session) (now : Amount) : Prop where
  tables : s.book.store.AllOrNone
  succeeds : ∀ direction, (s.step now (.migrate direction)).1 = .ok .done
  /-- Setting up changes nothing that is there. -/
  up : (s.step now (.migrate .up)).2 =
    if s.book.store.recorded then s else s.withStore .fresh
  down : (s.step now (.migrate .down)).2 = s.withStore .blank
  /-- Setting up again gives three empty tables and the record. -/
  again : ((s.step now (.migrate .down)).2.step now (.migrate .up)).2 = s.withStore .fresh

theorem step_up_of_blank {s : Session} (h : s.book.store = .blank) (now : Amount) :
    (s.step now (.migrate .up)).2 = s.withStore .fresh := by
  rw [step, Store.migrate, h, Store.setUp_blank]
  rfl

theorem cycles_of_allOrNone {s : Session} (h : s.book.store.AllOrNone) (now : Amount) :
    s.Cycles now := by
  have hdown : (s.step now (.migrate .down)).2 = s.withStore .blank := by
    rw [step, Store.migrate, Store.tearDown_of_allOrNone h]
    rfl
  refine ⟨h, fun direction => ?_, ?_, hdown, ?_⟩
  · obtain ⟨hok, -⟩ := Store.migrate_of_allOrNone h direction
    simp only [step, hok]
    rfl
  · rcases h with ⟨-, hrecorded⟩ | hblank
    · rw [if_pos hrecorded, step, Store.migrate, Store.setUp, if_pos hrecorded]
      rfl
    · rw [step_up_of_blank hblank, hblank]
      rfl
  · rw [hdown]
    exact step_up_of_blank (s := s.withStore .blank) rfl now

/-- From an empty database on, whatever is migrated, done through the engine or inserted by
hand, as long as no table is dropped: there are all tables and the record or nothing, every
migration succeeds, setting up changes no row of a schema that is there, and tearing down
removes everything, after which setting up gives a new database. -/
theorem schema_cycles {s : Session} (hs : s.book.store = .blank) {steps : List (Amount × Step)}
    (hsteps : ∀ x ∈ steps, x.2.dropsTable = false) (now : Amount) : (s.after steps).Cycles now := by
  have hstart : s.Satisfies Store.AllOrNone fun _ => True :=
    ⟨.inr hs, fun _ _ _ => trivial, fun _ _ _ => trivial⟩
  exact cycles_of_allOrNone (satisfies_run hstart hsteps).store now

def breakfast : Expense :=
  ⟨none, 1, "breakfast", 2, ⟨"NOK", by decide, by decide +kernel⟩, [⟨"alice", 2⟩]⟩

/-- An expense that is added, and a spending of it that is inserted by hand. -/
def used : List (Amount × Step) :=
  [(1, .migrate .up), (2, .migrate .up), (3, .addExpense "alice" breakfast none),
    (4, .insertSpending ⟨"s", (Id.minted 1).toText, 3, "bob"⟩)]

theorem used_cycles : (∀ x ∈ used, x.2.dropsTable = false) ∧
    ((Session.mk ⟨.blank, 1, []⟩ [] []).after used).book.store.heldSpendings.length = 2 ∧
    ((Session.mk ⟨.blank, 1, []⟩ [] []).after used).Cycles 5 := by
  have hsteps : ∀ x ∈ used, x.2.dropsTable = false := by decide
  exact ⟨hsteps, by decide +kernel, schema_cycles rfl hsteps 5⟩

end Session
end FriendLedger
