import FriendLedger.Proofs.Ledger.Catalogue
import FriendLedger.Proofs.Ledger.Reading

/-! Tables and operations that stand for a catalogue and its postings. Performing or
reversing an operation does what performing or reversing the posting does, and as
long as the ids last it fails only where the posting fails. -/

namespace FriendLedger

set_option autoImplicit false

/-- The deals and spendings are those of the catalogue's expenses. -/
structure Store.Holds (s : Store) (m : Catalogue) : Prop where
  keyed : s.Keyed
  absent : ∀ id, m.lookup id = none → s.dealsAt id.toText = []
  present : ∀ id e, m.lookup id = some e → ∃ d, s.dealsAt id.toText = [d] ∧
    (ExpenseRows.mk d (s.spendingsAt id.toText)).Encodes id e

inductive Operation.Stands : Operation → Posting → Prop
  | adding {e : Expense} {inserted : Option Id} :
      Stands (.addExpense ⟨e, inserted⟩) (.adding e inserted)
  | removing {id : Id} : Stands (.removeExpense ⟨id, none⟩) (.removing id none)
  | removed {id : Id} {rows : ExpenseRows} {e : Expense} (h : rows.Encodes id e) :
      Stands (.removeExpense ⟨id, some rows⟩) (.removing id (some e))

theorem Operation.Stands.keepsExpense {op : Operation} {p : Posting} (h : op.Stands p) :
    op.KeepsExpense := by
  cases h with
  | removed henc => exact ⟨henc.coherent, by rw [henc.deal]⟩
  | _ => trivial

theorem Operation.stands_of_ofNew? {op : Operation} {p : Posting} (h : Posting.ofNew? op = some p) :
    op.Stands p ∧ ∀ k, op.count k = 0 := by
  unfold Posting.ofNew? at h
  split at h
  · cases h
    exact ⟨.adding, fun _ => rfl⟩
  · cases h
    exact ⟨.removing, fun _ => rfl⟩
  · cases h

namespace Store.Holds
variable {s : Store} {m : Catalogue} {id : Id} {e : Expense} {rows : ExpenseRows}

theorem fresh : Store.fresh.Holds ∅ where
  keyed := keyed_fresh
  absent _ _ := rfl
  present id e h := by simp at h

theorem shows (h : s.Holds m) : s.Shows m := by
  intro id
  rw [Ledger.find?_eq h.keyed.toComplete]
  cases hm : m.lookup id with
  | none =>
    rw [h.absent id hm]
    rfl
  | some e =>
    obtain ⟨d, hd, henc⟩ := h.present id e hm
    simp only [hd, List.head?_cons, henc.decode_eq]
    rfl

theorem get_eq (h : s.Holds m) (actor : String) (id : Id) :
    Ledger.get s actor id =
      match m.lookup id with
      | none => .error (.expenseNotFound id.toText)
      | some e =>
        if e.involves actor then .ok (e.listedAs id)
        else .error (.notYourExpense (actor ++ " holds no share of " ++ id.toText)) := by
  rw [Ledger.get, h.shows id]
  cases m.lookup id with
  | none => rfl
  | some e =>
    simp only [Option.map_some, ok_bind, Expense.involves_listedAs]
    rfl

theorem exists_of_head? (h : s.Holds m) {d : DealRow} (hd : (s.dealsAt id.toText).head? = some d) :
    ∃ e, m.lookup id = some e ∧ (ExpenseRows.mk d (s.spendingsAt id.toText)).Encodes id e := by
  cases hm : m.lookup id with
  | none =>
    rw [h.absent id hm] at hd
    cases hd
  | some e =>
    obtain ⟨d', hd', henc⟩ := h.present id e hm
    rw [hd'] at hd
    cases hd
    exact ⟨e, rfl, henc⟩

theorem withExpense (h : s.Holds m) (henc : rows.Encodes id e) (ha : s.Admits rows) :
    id ∉ m ∧ (s.withExpense rows).Holds (m.insert id e) := by
  have hid : rows.deal.id = id.toText := by rw [henc.deal]
  have hnone : s.dealsAt id.toText = [] := by
    rw [← hid]
    exact dealsAt_eq_nil_iff.mpr ha.deal
  have hspendings := h.keyed.spendingsAt_eq_nil hnone
  have hother {i : Id} (hi : i ≠ id) : rows.deal.id ≠ i.toText := by
    rw [hid]
    exact fun heq => hi (Id.toText_inj heq).symm
  refine ⟨?_, h.keyed.withExpense henc.coherent ha, ?_, ?_⟩
  · rw [← Finmap.lookup_eq_none]
    cases hm : m.lookup id with
    | none => rfl
    | some e' =>
      obtain ⟨d, hd, -⟩ := h.present id e' hm
      rw [hnone] at hd
      cases hd
  · intro i hi
    have hne : i ≠ id := by
      rintro rfl
      rw [Finmap.lookup_insert] at hi
      cases hi
    rw [Finmap.lookup_insert_of_ne _ hne] at hi
    rw [dealsAt_withExpense, if_neg (hother hne), List.append_nil, h.absent i hi]
  · intro i e' hi
    rw [dealsAt_withExpense, spendingsAt_withExpense henc.coherent]
    by_cases hne : i = id
    · subst hne
      rw [Finmap.lookup_insert] at hi
      cases hi
      rw [if_pos hid, if_pos hid, hnone, hspendings]
      exact ⟨rows.deal, rfl, henc⟩
    · rw [Finmap.lookup_insert_of_ne _ hne] at hi
      rw [if_neg (hother hne), if_neg (hother hne), List.append_nil, List.append_nil]
      exact h.present i e' hi

theorem withoutExpense (h : s.Holds m) (id : Id) :
    (s.withoutExpense id.toText).Holds (m.erase id) where
  keyed := h.keyed.withoutExpense _
  absent i hi := by
    rw [dealsAt_withoutExpense]
    by_cases hne : i = id
    · rw [if_pos (congrArg Id.toText hne)]
    · rw [if_neg fun heq => hne (Id.toText_inj heq)]
      rw [Finmap.lookup_erase_ne hne] at hi
      exact h.absent i hi
  present i e hi := by
    have hne : i ≠ id := by
      rintro rfl
      rw [Finmap.lookup_erase] at hi
      cases hi
    rw [Finmap.lookup_erase_ne hne] at hi
    have htext : i.toText ≠ id.toText := fun heq => hne (Id.toText_inj heq)
    rw [dealsAt_withoutExpense, spendingsAt_withoutExpense, if_neg htext, if_neg htext]
    exact h.present i e hi

end Store.Holds

namespace Register
variable {stale : Prop} {r r' : Register} {p p' : Posting}

theorem Performs.beside {out : Option Output} (h : Performs stale r p out p' r') :
    r'.journals = r.journals ∧ r'.handles = r.handles := by
  cases h <;> exact ⟨rfl, rfl⟩

theorem Reverses.beside {ok : Bool} (h : Reverses stale r p ok p' r') :
    r'.journals = r.journals ∧ r'.handles = r.handles := by
  cases h <;> exact ⟨rfl, rfl⟩

theorem ReversesAll.beside {ps : List Posting} {ok : Bool} (h : ReversesAll stale r ps ok r') :
    r'.journals = r.journals ∧ r'.handles = r.handles := by
  induction h with
  | nil => exact ⟨rfl, rfl⟩
  | cons h _ ih => exact ⟨ih.1.trans h.beside.1, ih.2.trans h.beside.2⟩
  | stop h => exact h.beside

end Register

/-- The book holds the entries of the register, while the rows counted by `kept` are
kept elsewhere. -/
structure Book.Carries (b : Book) (kept : Key → Nat) (r : Register) : Prop where
  holds : b.store.Holds r.entries
  sound : b.Sound kept
  used : ∀ id ∈ r.used, ∃ n < b.nextId, id = Id.minted n

namespace Book.Carries
variable {b b' : Book} {kept : Key → Nat} {r : Register} {op op' : Operation} {p : Posting}

/-- What is held and recorded in the register does not count. -/
theorem congr {r' : Register} (h : b.Carries kept r) (hentries : r'.entries = r.entries)
    (hused : r'.used = r.used) : b.Carries kept r' where
  holds := hentries ▸ h.holds
  sound := h.sound
  used := hused ▸ h.used

theorem useIds (h : b.Carries kept r) (n : Nat) : (b.useIds n).Carries kept r where
  holds := h.holds
  sound := h.sound.mono (Nat.le_add_right _ _) fun _ => Nat.le_refl _
  used id hid := by
    obtain ⟨m, hm, heq⟩ := h.used id hid
    exact ⟨m, Nat.lt_of_lt_of_le hm (Nat.le_add_right _ _), heq⟩

theorem performs (h : b.Carries (fun k => op.count k + kept k) r) (hop : op.Stands p)
    {out : Output} (hperf : op.perform b = (.ok out, op', b')) :
    ∃ p' r', r.Performs b'.Exhausted p (some out) p' r' ∧ op'.Stands p' ∧
      b'.Carries (fun k => op'.count k + kept k) r' := by
  have heff := Operation.effect_of_perform h.holds.keyed.toComplete hperf
  have hsound := heff.sound h.holds.keyed h.sound
  cases hop with
  | @adding e inserted =>
    cases heff with
    | addExpense ha =>
      obtain ⟨hid, hholds⟩ := h.holds.withExpense encodes_rowsFor ha
      refine ⟨_, _, .add hid ?_, .adding, hholds, hsound, ?_⟩
      · intro hused
        obtain ⟨n, hn, heq⟩ := h.used _ hused
        by_contra hex
        have hcap : b.nextId + (e.shares.length + 1) ≤ Id.capacity := Nat.le_of_not_lt hex
        have := Id.minted_inj (by omega) (by omega) heq
        omega
      · intro id hid
        rcases List.mem_cons.mp hid with rfl | hid
        · exact ⟨b.nextId, Nat.lt_add_of_pos_right (Nat.succ_pos _), rfl⟩
        · obtain ⟨n, hn, heq⟩ := h.used id hid
          exact ⟨n, Nat.lt_of_lt_of_le hn (Nat.le_add_right _ _), heq⟩
  | @removing id =>
    cases heff with
    | removeExpense hd hx =>
      obtain ⟨e, he, henc⟩ := h.holds.exists_of_head? hd
      rw [henc.decode_eq] at hx
      cases hx
      exact ⟨_, _, .remove he, .removed henc, h.holds.withoutExpense id, hsound, h.used⟩
  | removed => cases heff

theorem performs_none (h : b.Carries (fun k => op.count k + kept k) r) (hop : op.Stands p)
    {f : Failure} (hperf : op.perform b = (.error f, op', b')) :
    r.Performs b'.Exhausted p none p r ∧ op' = op ∧ b'.Carries (fun k => op.count k + kept k) r := by
  have hc := h.holds.keyed.toComplete
  obtain ⟨rfl, rfl⟩ := Operation.perform_error hperf
  refine ⟨?_, rfl, h.useIds _⟩
  cases hop with
  | @adding e inserted =>
    cases inserted with
    | some id => exact .again rfl
    | none =>
      -- without a repeated id the rows would have fitted in
      refine .add_stale ?_
      by_contra hex
      rw [Operation.perform_of_effect hc (.addExpense (h.sound.admits_rowsFor hex))] at hperf
      cases hperf
  | @removing id =>
    refine .missing ?_
    rw [← Finmap.lookup_eq_none]
    cases hm : r.entries.lookup id with
    | none => rfl
    | some e =>
      obtain ⟨d, hd, henc⟩ := h.holds.present id e hm
      have hhead : (b.store.dealsAt id.toText).head? = some d := by rw [hd]; rfl
      rw [Operation.perform_of_effect hc (.removeExpense hhead henc.decode_eq)] at hperf
      cases hperf
  | removed => exact .again rfl

theorem reverses (h : b.Carries (fun k => op.count k + kept k) r) (hop : op.Stands p)
    (hrev : op.reverse b = (.ok (), op', b')) :
    b'.nextId = b.nextId ∧ ∃ p' r', r.Reverses b.Exhausted p true p' r' ∧ op'.Stands p' ∧
      b'.Carries (fun k => op'.count k + kept k) r' := by
  have hc := h.holds.keyed.toComplete
  have hreversal := Operation.reversal_of_reverse hc hrev
  obtain ⟨hnext, hsound⟩ := hreversal.sound hc hop.keepsExpense h.sound
  refine ⟨hnext, ?_⟩
  cases hop with
  | @adding e inserted =>
    cases hreversal with
    | @addExpense _ id => exact ⟨_, _, .add, .adding, h.holds.withoutExpense id, hsound, h.used⟩
  | removing => cases hreversal
  | @removed id rows e henc =>
    cases hreversal with
    | removeExpense hs =>
      obtain ⟨ha, rfl⟩ := (hc.insertExpense_eq_ok_iff henc.coherent).mp hs
      obtain ⟨hid, hholds⟩ := h.holds.withExpense henc ha
      exact ⟨_, _, .remove hid, .removing, hholds, hsound, h.used⟩

theorem reverses_false (h : b.Carries (fun k => op.count k + kept k) r) (hop : op.Stands p)
    {f : Failure} (hrev : op.reverse b = (.error f, op', b')) :
    r.Reverses b.Exhausted p false p r ∧ op' = op ∧ b' = b := by
  have hc := h.holds.keyed.toComplete
  obtain ⟨rfl, rfl⟩ := Operation.reverse_error hrev
  refine ⟨?_, rfl, rfl⟩
  cases hop with
  | @adding e inserted =>
    cases inserted with
    | none => exact .early rfl
    | some id =>
      rw [Operation.reverse_of_reversal hc .addExpense] at hrev
      cases hrev
  | removing => exact .early rfl
  | removed henc =>
    refine .remove_stale ?_
    by_contra hex
    have hs := (hc.insertExpense_eq_ok_iff henc.coherent).mpr ⟨h.sound.admits hex, rfl⟩
    rw [Operation.reverse_of_reversal hc (.removeExpense hs)] at hrev
    cases hrev

theorem mono {kept' : Key → Nat} (h : b.Carries kept r) (hle : ∀ k, kept' k ≤ kept k) :
    b.Carries kept' r :=
  ⟨h.holds, h.sound.weaken hle, h.used⟩

theorem reversesAll {ops : List Operation} {ps : List Posting} {answer : Except Failure Unit}
    (h : b.Carries (fun k => (ops.map (·.count k)).sum + kept k) r)
    (hops : List.Forall₂ Operation.Stands ops ps) (hrev : Journal.reverseAll ops b = (answer, b')) :
    b'.nextId = b.nextId ∧ ∃ r', r.ReversesAll b.Exhausted ps answer.toBool r' ∧
      b'.Carries kept r' := by
  induction hops generalizing b r with
  | nil =>
    cases hrev
    exact ⟨rfl, r, .nil, h.mono fun k => by simp⟩
  | @cons op p ops ps hop hops ih =>
    have hfirst : b.Carries (fun k => op.count k + ((ops.map (·.count k)).sum + kept k)) r :=
      h.mono fun k => by simp [Nat.add_assoc]
    simp only [Journal.reverseAll] at hrev
    split at hrev
    · rename_i op' b₁ hone
      obtain ⟨hnext, p', r₁, hp, -, hb₁⟩ := hfirst.reverses hop hone
      obtain ⟨hnext', r', hps, hb'⟩ := ih (hb₁.mono fun k => Nat.le_add_left _ _) hrev
      rw [Book.Exhausted, hnext] at hps
      exact ⟨hnext'.trans hnext, r', .cons hp hps, hb'⟩
    · rename_i f op' b₁ hone
      obtain ⟨hp, -, rfl⟩ := hfirst.reverses_false hop hone
      cases hrev
      exact ⟨rfl, r, .stop hp, hfirst.mono fun k => by omega⟩

end Book.Carries
end FriendLedger
