import FriendLedger.Proofs.Operation.Acceptance
import Mathlib.Data.List.Chain

/-! One operation, called again and again while others do what they like with the book.
The calls that succeed alternate between performing and reversing, since each of them
turns around whether the operation is performed and nothing else does. What a reversal
needs is kept in the operation from the last performance on, through any number of
reversals that fail. -/

namespace FriendLedger.Operation

set_option autoImplicit false

inductive Call
  | perform
  | reverse
deriving DecidableEq

/-- Whether the operation has to be performed for the call to succeed. -/
def Call.needs : Call → Bool
  | .perform => false
  | .reverse => true

/-- Makes the call and tells whether it succeeds. -/
def Call.make (x : Operation × Book) : Call → Bool × Operation × Book
  | .perform => ((x.1.perform x.2).1.isOk, (x.1.perform x.2).2)
  | .reverse => ((x.1.reverse x.2).1.isOk, (x.1.reverse x.2).2)

/-- The operation is called, or others leave another book behind. -/
inductive Trial
  | call (c : Call)
  | others (b : Book)

namespace Trial

def run (x : Operation × Book) : Trial → Operation × Book
  | .call c => (c.make x).2
  | .others b => (x.1, b)

/-- The call that succeeds, if one is made and does. -/
def success? (x : Operation × Book) : Trial → Option Call
  | .call c => if (c.make x).1 then some c else none
  | .others _ => none

end Trial

def afterAll (trials : List Trial) (x : Operation × Book) : Operation × Book :=
  trials.foldl Trial.run x

/-- The calls that succeed, in order. -/
def successes : List Trial → Operation × Book → List Call
  | [], _ => []
  | trial :: trials, x => (trial.success? x).toList ++ successes trials (trial.run x)

/-- The last call that succeeded performed the operation, on the book `found`. -/
def LastPerformed (trials : List Trial) (x : Operation × Book) (found : Book) : Prop :=
  ∃ pre rest, trials = pre ++ .call .perform :: rest ∧ (afterAll pre x).2 = found ∧
    (Call.perform.make (afterAll pre x)).1 = true ∧
    successes rest (Call.perform.make (afterAll pre x)).2 = []

variable {found : Book} {x : Operation × Book} {trial : Trial} {trials : List Trial} {c : Call}

/-! ### One trial -/

/-- A call that does not succeed leaves the operation as it was. -/
theorem Call.make_of_failed (h : (c.make x).1 = false) : (c.make x).2.1 = x.1 := by
  cases c with
  | perform =>
    rcases hp : x.1.perform x.2 with ⟨answer, op', b'⟩
    simp only [make, hp] at h ⊢
    cases answer with
    | ok out => cases h
    | error f => exact (perform_error hp).1
  | reverse =>
    rcases hr : x.1.reverse x.2 with ⟨answer, op', b'⟩
    simp only [make, hr] at h ⊢
    cases answer with
    | ok u => cases h
    | error f => exact (reverse_error hr).1

/-- A call that succeeds turns around whether the operation is performed. -/
theorem Call.make_turns (hs : x.1.isScripted = false) (h : (c.make x).1 = true) :
    x.1.isPerformed = c.needs ∧ (c.make x).2.1.isPerformed = !c.needs ∧
      (c.make x).2.1.isScripted = false := by
  cases c with
  | perform =>
    rcases hp : x.1.perform x.2 with ⟨answer, op', b'⟩
    simp only [make, hp] at h ⊢
    obtain ⟨out, rfl⟩ := exists_of_isOk h
    have heff := effect_filled hp
    refine ⟨?_, heff.isPerformed_eq, heff.isScripted_eq.trans hs⟩
    cases hperformed : x.1.isPerformed with
    | false => rfl
    | true =>
      rw [perform_of_performed hperformed hs] at hp
      cases hp
  | reverse =>
    rcases hr : x.1.reverse x.2 with ⟨answer, op', b'⟩
    simp only [make, hr] at h ⊢
    obtain ⟨u, rfl⟩ := exists_of_isOk h
    have hreversal := reversal_filled hr
    exact ⟨hreversal.isPerformed_of, hreversal.isPerformed_eq hs, hreversal.isScripted_eq.trans hs⟩

namespace Trial

theorem success?_eq_some_iff :
    trial.success? x = some c ↔ trial = .call c ∧ (c.make x).1 = true := by
  cases trial with
  | others b => simp [success?]
  | call c' =>
    simp only [success?, Option.ite_none_right_eq_some, Option.some.injEq, call.injEq]
    constructor
    · rintro ⟨h, rfl⟩
      exact ⟨rfl, h⟩
    · rintro ⟨rfl, h⟩
      exact ⟨h, rfl⟩

/-- Nothing but a call that succeeds changes the operation. -/
theorem run_of_no_success (h : trial.success? x = none) : (trial.run x).1 = x.1 := by
  cases trial with
  | others b => rfl
  | call c =>
    cases hmade : (c.make x).1 with
    | false => exact Call.make_of_failed hmade
    | true =>
      rw [success?, if_pos hmade] at h
      cases h

theorem isScripted_run (hs : x.1.isScripted = false) : (trial.run x).1.isScripted = false := by
  cases h : trial.success? x with
  | none => rwa [run_of_no_success h]
  | some c =>
    obtain ⟨rfl, hmade⟩ := success?_eq_some_iff.mp h
    exact (Call.make_turns hs hmade).2.2

end Trial

/-! ### All trials -/

theorem isScripted_afterAll (hs : x.1.isScripted = false) :
    (afterAll trials x).1.isScripted = false := by
  induction trials generalizing x with
  | nil => exact hs
  | cons trial trials ih => exact ih (Trial.isScripted_run hs)

theorem successes_cons_eq_nil_iff :
    successes (trial :: trials) x = [] ↔
      trial.success? x = none ∧ successes trials (trial.run x) = [] := by
  rw [successes, List.append_eq_nil_iff, Option.toList_eq_nil_iff]

theorem afterAll_of_no_success (h : successes trials x = []) : (afterAll trials x).1 = x.1 := by
  induction trials generalizing x with
  | nil => rfl
  | cons trial trials ih =>
    obtain ⟨hnone, hrest⟩ := successes_cons_eq_nil_iff.mp h
    exact (ih hrest).trans (Trial.run_of_no_success hnone)

/-- The first call that succeeds is the one that the operation is ready for, and no two in
a row are the same. -/
theorem successes_alternate (trials : List Trial) (hs : x.1.isScripted = false) :
    (∀ c ∈ (successes trials x).head?, c.needs = x.1.isPerformed) ∧
      (successes trials x).IsChain (· ≠ ·) := by
  induction trials generalizing x with
  | nil =>
    refine ⟨?_, List.isChain_nil⟩
    intro c hc
    cases hc
  | cons trial trials ih =>
    obtain ⟨hhead, hchain⟩ := ih (x := trial.run x) (Trial.isScripted_run hs)
    rw [successes]
    cases h : trial.success? x with
    | none =>
      rw [Trial.run_of_no_success h] at hhead
      exact ⟨hhead, hchain⟩
    | some c =>
      obtain ⟨rfl, hmade⟩ := Trial.success?_eq_some_iff.mp h
      obtain ⟨hbefore, hafter, -⟩ := Call.make_turns hs hmade
      constructor
      · intro c' hc'
        cases hc'
        exact hbefore.symm
      · refine List.isChain_cons.mpr ⟨?_, hchain⟩
        rintro c' hc' rfl
        have hneeds := (hhead c hc').trans hafter
        cases c <;> cases hneeds

/-- An operation that is performed at the end was so from the start, or since some call. -/
theorem lastPerformed_or_unchanged (hs : x.1.isScripted = false)
    (hp : (afterAll trials x).1.isPerformed = true) :
    successes trials x = [] ∨ ∃ found, LastPerformed trials x found := by
  induction trials generalizing x with
  | nil => exact .inl rfl
  | cons trial trials ih =>
    rcases ih (x := trial.run x) (Trial.isScripted_run hs) hp with hnone | ⟨found, hlast⟩
    · cases h : trial.success? x with
      | none => exact .inl (successes_cons_eq_nil_iff.mpr ⟨h, hnone⟩)
      | some c =>
        obtain ⟨rfl, hmade⟩ := Trial.success?_eq_some_iff.mp h
        cases c with
        | perform => exact .inr ⟨x.2, [], trials, rfl, rfl, hmade, hnone⟩
        | reverse =>
          obtain ⟨-, hafter, -⟩ := Call.make_turns hs hmade
          have hend : (afterAll (.call .reverse :: trials) x).1 = (Call.reverse.make x).2.1 :=
            afterAll_of_no_success hnone
          rw [hend, hafter] at hp
          cases hp
    · obtain ⟨pre, rest, rfl, hfound⟩ := hlast
      exact .inr ⟨found, trial :: pre, rest, rfl, hfound⟩

theorem LastPerformed.revocation (h : LastPerformed trials x found) (hs : x.1.isScripted = false)
    (c : Book) : (afterAll trials x).1.Revocation found c := by
  obtain ⟨pre, rest, rfl, rfl, hmade, hnone⟩ := h
  have hpre : (afterAll pre x).1.isScripted = false := isScripted_afterAll hs
  have hend : (afterAll (pre ++ .call .perform :: rest) x).1 =
      (Call.perform.make (afterAll pre x)).2.1 := by
    rw [afterAll, List.foldl_append, List.foldl_cons]
    exact afterAll_of_no_success hnone
  rw [hend]
  rcases hp : (afterAll pre x).1.perform (afterAll pre x).2 with ⟨answer, op', b'⟩
  simp only [Call.make, hp] at hmade ⊢
  obtain ⟨out, rfl⟩ := exists_of_isOk hmade
  exact revocation_of_perform hp hpre c

/-- An operation is atomic, whatever the store. However often it is called and whatever
happens to the book in between, the calls that succeed alternate, a performance first if
it is not performed; and when it is performed in the end, reversing it succeeds once the
store accepts it, and restores what the last performance has found. -/
theorem atomic_and_alternating {op : Operation} (hs : op.isScripted = false) :
    op.Atomic ∧ ∀ (b : Book) (trials : List Trial),
      (successes trials (op, b)).IsChain (· ≠ ·) ∧
      (∀ c ∈ (successes trials (op, b)).head?, c = .perform ↔ op.isPerformed = false) ∧
      (op.isPerformed = false → (afterAll trials (op, b)).1.isPerformed = true →
        ∃ found, LastPerformed trials (op, b) found) ∧
      ∀ found, LastPerformed trials (op, b) found →
        ∀ c, (afterAll trials (op, b)).1.Revocation found c := by
  refine ⟨atomic hs, ?_⟩
  intro b trials
  obtain ⟨hhead, hchain⟩ := successes_alternate (x := (op, b)) trials hs
  refine ⟨hchain, ?_, ?_, fun found hlast c => hlast.revocation hs c⟩
  · intro c hc
    rw [← hhead c hc]
    cases c <;> simp [Call.needs]
  · intro hnew hp
    rcases lastPerformed_or_unchanged (x := (op, b)) hs hp with hnone | hlast
    · rw [afterAll_of_no_success hnone] at hp
      cases hnew.symm.trans hp
    · exact hlast

/-! ### A removal whose spending id is taken for a while -/

def tollDeal : DealRow := ⟨(Id.minted 1).toText, 1, "toll", 2, "CHF"⟩

def tollSpending : SpendingRow := ⟨"s1", (Id.minted 1).toText, 2, "bob"⟩

/-- The book with these rows alone. -/
def bookOf (deals : List DealRow) (spendings : List SpendingRow) : Book :=
  ⟨⟨some [], some deals, some spendings, true⟩, 1, []⟩

/-- The expense is removed. Somebody uses its share's id, then the tables are gone, and
reversing fails both times; then both are back. -/
def tollTrials : List Trial :=
  [.call .perform,
    .others (bookOf [⟨"other", 1, "tea", 2, "EUR"⟩] [⟨"s1", "other", 2, "eve"⟩]), .call .reverse,
    .others ⟨.blank, 1, []⟩, .call .reverse, .others .fresh]

theorem toll_restored :
    let remove : Operation := .removeExpense (.new (Id.minted 1))
    let found := bookOf [tollDeal] [tollSpending]
    let x := afterAll tollTrials (remove, found)
    remove.isScripted = false ∧ successes tollTrials (remove, found) = [.perform] ∧
      ∃ op' c', x.1.reverse x.2 = (.ok (), op', c') ∧ c'.store.dealsAt tollDeal.id = [tollDeal] ∧
        c'.store.spendingsAt tollDeal.id = [tollSpending] := by
  intro remove found x
  have hs : remove.isScripted = false := rfl
  have hlast : LastPerformed tollTrials (remove, found) found :=
    ⟨[], tollTrials.tail, rfl, rfl, by decide +kernel, by decide +kernel⟩
  obtain ⟨-, hall⟩ := atomic_and_alternating hs
  obtain ⟨-, -, -, hrevocation⟩ := hall found tollTrials
  have hr := hrevocation found hlast x.2
  have hop : x.1 = .removeExpense ⟨Id.minted 1, some ⟨tollDeal, [tollSpending]⟩⟩ := by
    decide +kernel
  have hfree : x.2 = .fresh := by decide +kernel
  have haccepted : x.1.AcceptedBy x.2.store := by
    rw [hop, hfree]
    exact ⟨rfl, fun _ => rfl, ⟨by decide, by decide, by decide⟩⟩
  have hfound : found.store.filled.Keyed :=
    ⟨⟨rfl, rfl, rfl⟩, by decide, by decide, by decide, by decide +kernel⟩
  cases hrev : x.1.reverse x.2 with
  | mk answer rest =>
    obtain ⟨op', c'⟩ := rest
    have hok := hr.accepted.mpr haccepted
    rw [hrev] at hok
    cases hok
    obtain ⟨hback, -⟩ := hr.restores hrev hfound (hfree ▸ Store.keyed_fresh)
      (.expense tollDeal.id)
    obtain ⟨hdeals, hspendings⟩ := hback (by rw [hop]; rfl)
    exact ⟨hs, by decide +kernel, op', c', rfl, hdeals.trans (by decide +kernel),
      hspendings.trans (by decide +kernel)⟩

end FriendLedger.Operation
