import FriendLedger.Proofs.Friends.Requests
import FriendLedger.Proofs.Journal.Undoing
import FriendLedger.Proofs.Ledger.Reading

/-! Rolling back a journal after any history. Calls through the journal alternate
with changes that somebody else makes to the book. When these spare what the
journal has written, the rollback succeeds, and it restores every place to what it
held before the journal first wrote there; all other places stay as they are. -/

namespace FriendLedger

set_option autoImplicit false

namespace Journal

/-- What happens while a journal is open on a book. -/
inductive Event
  /-- An operation built by hand goes through the journal. -/
  | perform (op : Operation)
  | request (r : Request)
  | add (actor : String) (e : Expense)
  | remove (actor : String) (id : Id)
  /-- Somebody else leaves the book like this. -/
  | others (b : Book)

namespace Event

def run (ev : Event) (x : Journal × Book) : Journal × Book :=
  match ev with
  | .perform op => (x.1.perform id op x.2).2
  | .request r => (r.run x.1 x.2).2
  | .add actor e => (Ledger.add actor e x.1 x.2).2
  | .remove actor id => (Ledger.remove actor id x.1 x.2).2
  | .others b => (x.1, b)

def runAll : List Event → Journal × Book → Journal × Book
  | [], x => x
  | ev :: evs, x => runAll evs (ev.run x)

/-- Operations that write to the store alone go through the journal. Others keep to
the keys of the schema and spare what the journal has written. -/
def Allowed (ev : Event) (x : Journal × Book) : Prop :=
  match ev with
  | .perform op => op.isScripted = false
  | .others b => b.store.Keyed ∧ Operation.Spares x.1.performed x.2.store b.store
  | _ => True

def AllAllowed : List Event → Journal × Book → Prop
  | [], _ => True
  | ev :: evs, x => ev.Allowed x ∧ AllAllowed evs (ev.run x)

theorem runAll_append (xs ys : List Event) (x : Journal × Book) :
    runAll (xs ++ ys) x = runAll ys (runAll xs x) := by
  induction xs generalizing x with
  | nil => rfl
  | cons ev xs ih => exact ih (ev.run x)

theorem allAllowed_append {xs ys : List Event} {x : Journal × Book} :
    AllAllowed (xs ++ ys) x ↔ AllAllowed xs x ∧ AllAllowed ys (runAll xs x) := by
  induction xs generalizing x with
  | nil => simp [AllAllowed, runAll]
  | cons ev xs ih => simp [AllAllowed, runAll, ih, and_assoc]

def isOthers : Event → Bool
  | .others _ => true
  | _ => false

end Event

variable {x : Journal × Book} {evs : List Event} {ev : Event} {p : Place}

/-- A call of our own advances the journal by an operation on the store, or not at all. -/
theorem Event.advance (ha : ev.Allowed x) (ho : ev.isOthers = false) :
    Advance (fun op => op.isScripted = false) x.1 x.2 (ev.run x).1 (ev.run x).2 := by
  cases ev with
  | perform op => exact advance_operation ha
  | request r =>
    refine advance_request fun op hop => ?_
    rw [Request.operation_of_resolve hop]
    exact Request.isScripted_operation
  | add actor e => exact advance_add rfl
  | remove actor id => exact advance_remove rfl
  | others b => cases ho

theorem Event.keyed_ready (ha : ev.Allowed x) (hk : x.2.store.Keyed) (hr : x.1.Ready x.2.store) :
    (ev.run x).2.store.Keyed ∧ (ev.run x).1.Ready (ev.run x).2.store := by
  cases ho : ev.isOthers with
  | false =>
    obtain ⟨hk', hr', -⟩ := (Event.advance ha ho).ready (fun _ h => h) hk hr
    exact ⟨hk', hr'⟩
  | true =>
    cases ev with
    | others b => exact ⟨ha.1, Operation.Ready.of_spares hr ha.2⟩
    | _ => cases ho

theorem Event.touches_run (ha : ev.Allowed x) (hp : x.1.Touches p) : (ev.run x).1.Touches p := by
  cases ho : ev.isOthers with
  | false => exact (Event.advance ha ho).touches hp
  | true =>
    cases ev with
    | others b => exact hp
    | _ => cases ho

/-- An event keeps what a rollback leads back to: a call of our own everywhere, a
change by others wherever the journal has written. -/
theorem Event.undone_agreesAt (ha : ev.Allowed x) (hk : x.2.store.Keyed)
    (hr : x.1.Ready x.2.store) (hp : ev.isOthers = false ∨ x.1.Touches p) :
    ((ev.run x).1.undone (ev.run x).2.store).AgreesAt (x.1.undone x.2.store) p := by
  cases ho : ev.isOthers with
  | false =>
    obtain ⟨-, -, hsame⟩ := (Event.advance ha ho).ready (fun _ h => h) hk hr
    exact hsame p
  | true =>
    rcases hp with hp | ⟨op, hop, hplace⟩
    · rw [ho] at hp
      cases hp
    · cases ev with
      | others b => exact Operation.Ready.undoneAll_congr hr (ha.2.agrees op hop p hplace).symm
      | _ => cases ho

theorem Event.keyed_ready_all (ha : AllAllowed evs x) (hk : x.2.store.Keyed)
    (hr : x.1.Ready x.2.store) :
    (runAll evs x).2.store.Keyed ∧ (runAll evs x).1.Ready (runAll evs x).2.store := by
  induction evs generalizing x with
  | nil => exact ⟨hk, hr⟩
  | cons ev evs ih =>
    obtain ⟨hk', hr'⟩ := Event.keyed_ready ha.1 hk hr
    exact ih ha.2 hk' hr'

theorem Event.undone_agreesAt_all (ha : AllAllowed evs x) (hk : x.2.store.Keyed)
    (hr : x.1.Ready x.2.store) (hp : (∀ ev ∈ evs, ev.isOthers = false) ∨ x.1.Touches p) :
    ((runAll evs x).1.undone (runAll evs x).2.store).AgreesAt (x.1.undone x.2.store) p := by
  induction evs generalizing x with
  | nil => exact .refl _ p
  | cons ev evs ih =>
    obtain ⟨hk', hr'⟩ := Event.keyed_ready ha.1 hk hr
    have hfirst : ev.isOthers = false ∨ x.1.Touches p :=
      hp.imp_left fun h => h ev List.mem_cons_self
    have hrest : (∀ ev ∈ evs, ev.isOthers = false) ∨ (ev.run x).1.Touches p :=
      hp.imp (fun h ev' hm => h ev' (List.mem_cons_of_mem ev hm)) (Event.touches_run ha.1)
    exact (ih ha.2 hk' hr' hrest).trans (Event.undone_agreesAt ha.1 hk hr hfirst)

theorem ready_empty (s : Store) : Journal.empty.Ready s := trivial

theorem undone_agreesAt_first {b₀ : Book} {pre post : List Event}
    (ha : Event.AllAllowed (pre ++ ev :: post) (.empty, b₀)) (hk : b₀.store.Keyed)
    (hbefore : ¬ (Event.runAll pre (.empty, b₀)).1.Touches p)
    (hafter : (ev.run (Event.runAll pre (.empty, b₀))).1.Touches p) :
    ((Event.runAll (pre ++ ev :: post) (.empty, b₀)).1.undone
      (Event.runAll (pre ++ ev :: post) (.empty, b₀)).2.store).AgreesAt
        (Event.runAll pre (.empty, b₀)).2.store p := by
  obtain ⟨hpre, hev, hpost⟩ := Event.allAllowed_append.mp ha
  obtain ⟨hk₁, hr₁⟩ := Event.keyed_ready_all hpre hk (ready_empty _)
  obtain ⟨hk₂, hr₂⟩ := Event.keyed_ready hev hk₁ hr₁
  -- the event that touches the place first is no change by others: these leave the journal alone
  have ho : ev.isOthers = false := by
    cases ev with
    | others b => exact absurd hafter hbefore
    | _ => rfl
  rw [Event.runAll_append]
  exact ((Event.undone_agreesAt_all hpost hk₂ hr₂ (.inr hafter)).trans
    (Event.undone_agreesAt hev hk₁ hr₁ (.inl ho))).trans
      (Operation.Ready.undoneAll_agreesAt hr₁ (not_touches_iff.mp hbefore))

/-- The state `y` from which the first operation that writes at the place was performed. -/
def FirstTouched (evs : List Event) (x : Journal × Book) (p : Place) (y : Journal × Book) : Prop :=
  ∃ pre ev post, evs = pre ++ ev :: post ∧ y = Event.runAll pre x ∧ ¬ y.1.Touches p ∧
    (ev.run y).1.Touches p

theorem exists_firstTouched (hx : ¬ x.1.Touches p) (hp : (Event.runAll evs x).1.Touches p) :
    ∃ y, FirstTouched evs x p y := by
  induction evs generalizing x with
  | nil => exact absurd hp hx
  | cons ev evs ih =>
    by_cases hev : (ev.run x).1.Touches p
    · exact ⟨x, [], ev, evs, rfl, rfl, hx, hev⟩
    · obtain ⟨y, pre, ev', post, rfl, hy⟩ := ih hev hp
      exact ⟨y, ev :: pre, ev', post, rfl, hy⟩

theorem not_touches_empty : ¬ Journal.empty.Touches p := by
  simp [Touches, empty]

/-- A rollback succeeds whatever has happened since the journal was opened. Where the
journal has written, it restores what was there before; elsewhere it changes nothing. -/
theorem rollback_restores {b₀ : Book} (hk : b₀.store.Keyed)
    (ha : Event.AllAllowed evs (.empty, b₀)) :
    ∃ b, (Event.runAll evs (.empty, b₀)).1.rollback (Event.runAll evs (.empty, b₀)).2 = (.ok (), b) ∧
      b.store.Keyed ∧
      (∀ p, (Event.runAll evs (.empty, b₀)).1.Touches p → ∃ y, FirstTouched evs (.empty, b₀) p y) ∧
      (∀ p y, FirstTouched evs (.empty, b₀) p y → b.store.AgreesAt y.2.store p) ∧
      (∀ id y, FirstTouched evs (.empty, b₀) (.expense (Id.toText id)) y →
        Ledger.find? b.store id = Ledger.find? y.2.store id ∧
          ∀ actor, Ledger.get b.store actor id = Ledger.get y.2.store actor id) ∧
      (∀ p, ¬ (Event.runAll evs (.empty, b₀)).1.Touches p →
        b.store.AgreesAt (Event.runAll evs (.empty, b₀)).2.store p) ∧
      ((∀ ev ∈ evs, ev.isOthers = false) → b.store.SameRows b₀.store) := by
  obtain ⟨hk', hr'⟩ := Event.keyed_ready_all ha hk (ready_empty _)
  have hkeyed := hr'.keyed hk'
  have hfirst (p : Place) (y : Journal × Book) (hy : FirstTouched evs (.empty, b₀) p y) :
      y.2.store.Keyed ∧ ((Event.runAll evs (.empty, b₀)).1.undone
        (Event.runAll evs (.empty, b₀)).2.store).AgreesAt y.2.store p := by
    obtain ⟨pre, ev, post, rfl, rfl, hbefore, hafter⟩ := hy
    exact ⟨(Event.keyed_ready_all (Event.allAllowed_append.mp ha).1 hk (ready_empty _)).1,
      undone_agreesAt_first ha hk hbefore hafter⟩
  refine ⟨_, hr'.reverseAll_eq hk', hkeyed, ?_, ?_, ?_, ?_, ?_⟩
  · exact fun p hp => exists_firstTouched not_touches_empty hp
  · exact fun p y hy => (hfirst p y hy).2
  · intro id y hy
    obtain ⟨hky, hagrees⟩ := hfirst _ y hy
    have hfind := Ledger.find?_congr hkeyed.toComplete hky.toComplete hagrees
    exact ⟨hfind, fun actor => Ledger.get_congr actor hfind⟩
  · exact fun p hp => Operation.Ready.undoneAll_agreesAt hr' (not_touches_iff.mp hp)
  · intro halone
    exact hkeyed.sameRows hk fun p => Event.undone_agreesAt_all ha hk (ready_empty _) (.inl halone)

/-- One expense, in which alice holds a share. -/
def dinner : ExpenseRows :=
  ⟨⟨(Id.minted 7).toText, 1, "dinner", 2, "EUR"⟩, [⟨"s", (Id.minted 7).toText, 1, "alice"⟩]⟩

def dinnerBook : Book :=
  ⟨⟨some [], some [dinner.deal, ⟨"walk", 2, "walk", 0, "EUR"⟩], some dinner.spendings, true⟩, 1, []⟩

def emptied : Book :=
  { dinnerBook with store := dinnerBook.store.withoutExpense (Id.minted 7).toText }

theorem keyed_dinnerBook : dinnerBook.store.Keyed where
  edges := rfl
  deals := rfl
  spendings := rfl
  nodup_edges := List.nodup_nil
  nodup_deals := by decide +kernel
  nodup_spendings := by decide +kernel
  refers := by decide +kernel

theorem run_remove_dinner : (Event.remove "alice" (Id.minted 7)).run (.empty, dinnerBook) =
    (⟨[.removeExpense ⟨Id.minted 7, some dinner⟩]⟩, emptied) := by
  decide +kernel

/-- Alice removes the expense, somebody else asks somebody, alice asks bob. -/
def dinnerEvents : List Event :=
  [.remove "alice" (Id.minted 7),
    .others { emptied with store := emptied.store.withEdge ⟨"carol", "dave"⟩ },
    .request (.send "alice" "bob")]

theorem rollback_restores_dinner :
    dinnerBook.store.Keyed ∧ Event.AllAllowed dinnerEvents (.empty, dinnerBook) ∧
      ∃ b, (Event.runAll dinnerEvents (.empty, dinnerBook)).1.rollback
          (Event.runAll dinnerEvents (.empty, dinnerBook)).2 = (.ok (), b) ∧
        b.store.spendingsAt (Id.minted 7).toText = dinner.spendings := by
  have hallowed : Event.AllAllowed dinnerEvents (.empty, dinnerBook) := by
    refine ⟨trivial, ?_, trivial, trivial⟩
    rw [run_remove_dinner]
    refine ⟨(keyed_dinnerBook.withoutExpense _).withEdge List.not_mem_nil, ?_, ?_⟩
    · intro op hop p hp
      rw [List.mem_singleton.mp hop] at hp
      cases hp
      exact ⟨rfl, rfl⟩
    · exact fun _ _ q hq _ => hq
  obtain ⟨b, hb, -, -, hfirst, -⟩ := rollback_restores keyed_dinnerBook hallowed
  refine ⟨keyed_dinnerBook, hallowed, b, hb, ?_⟩
  have hremoved : ((Event.remove "alice" (Id.minted 7)).run (.empty, dinnerBook)).1.Touches
      (.expense (Id.minted 7).toText) := by
    rw [run_remove_dinner]
    exact ⟨_, List.mem_cons_self, rfl⟩
  have hagrees := hfirst (.expense (Id.minted 7).toText) (.empty, dinnerBook)
    ⟨[], _, _, rfl, rfl, not_touches_empty, hremoved⟩
  rw [hagrees.2]
  decide +kernel

/-- It can fail when somebody else stores a spending of another deal under the id of
one that the journal has deleted. -/
theorem rollback_fails_at_taken_id :
    let x := (Event.remove "alice" (Id.minted 7)).run (.empty, dinnerBook)
    let q : SpendingRow := ⟨"s", "walk", 1, "bob"⟩
    let t := x.2.store.withSpendings [q]
    dinnerBook.store.Keyed ∧ x.2.store.insertSpending q = .ok t ∧ t.Keyed ∧
      (∀ p, x.1.Touches p → x.2.store.AgreesAt t p) ∧
      (x.1.rollback { x.2 with store := t }).1 =
        .error (.rollbackFailed (.database (.duplicateKey .spendings))) := by
  simp only [run_remove_dinner]
  refine ⟨keyed_dinnerBook, by decide +kernel, ?_, ?_, by decide +kernel⟩
  · exact {
      edges := rfl, deals := rfl, spendings := rfl, nodup_edges := List.nodup_nil,
      nodup_deals := by decide +kernel, nodup_spendings := by decide +kernel,
      refers := by decide +kernel }
  · rintro p ⟨op, hop, hp⟩
    rw [List.mem_singleton.mp hop] at hp
    cases hp
    exact ⟨by decide +kernel, by decide +kernel⟩

end Journal
end FriendLedger
