import FriendLedger.Amount
import FriendLedger.Proofs.Currency
import Mathlib.Data.List.Induction
import Mathlib.Data.List.TakeWhile

/-! Texts as they are typed. A text is cut at its first equals sign, blanks around a word
count for nothing, and a whole number is a numeral: at most one sign and then digits,
leading zeros allowed. -/

namespace FriendLedger.Text

set_option autoImplicit false

/-! ### The first of a character -/

section Cut
variable {c : Char} {before after : List Char}

theorem takeWhile_ne_append (h : c ∉ before) :
    (before ++ c :: after).takeWhile (· ≠ c) = before := by
  have hall : ∀ d ∈ before, decide (d ≠ c) = true := fun d hd =>
    decide_eq_true (ne_of_mem_of_not_mem hd h)
  rw [List.takeWhile_append_of_pos hall, List.takeWhile_cons_of_neg (by simp), List.append_nil]

theorem dropWhile_ne_append (h : c ∉ before) :
    (before ++ c :: after).dropWhile (· ≠ c) = c :: after := by
  have hall : ∀ d ∈ before, decide (d ≠ c) = true := fun d hd =>
    decide_eq_true (ne_of_mem_of_not_mem hd h)
  rw [List.dropWhile_append_of_pos hall, List.dropWhile_cons_of_neg (by simp)]

theorem dropWhile_ne_eq_nil_iff {cs : List Char} : cs.dropWhile (· ≠ c) = [] ↔ c ∉ cs := by
  rw [List.dropWhile_eq_nil_iff]
  constructor
  · intro h hc
    simpa using h c hc
  · intro h d hd
    exact decide_eq_true (ne_of_mem_of_not_mem hd h)

end Cut

/-! ### Blanks -/

/-- What is left of a text when the blanks at both ends are taken away. -/
def TrimsTo (cs ds : List Char) : Prop :=
  ∃ before after, cs = before ++ ds ++ after ∧ (∀ c ∈ before, isBlank c = true) ∧
    (∀ c ∈ after, isBlank c = true) ∧ Trimmed ds

theorem trim_eq_iff {cs ds : List Char} : trim cs = ds ↔ TrimsTo cs ds := by
  constructor
  · rintro rfl
    obtain ⟨before, after, hcs, hb, ha⟩ := exists_append_trim cs
    exact ⟨before, after, hcs, hb, ha, trimmed_trim cs⟩
  · rintro ⟨before, after, rfl, hb, ha, htrim⟩
    rw [trim_append_right ha, trim_append_left hb, trim_of_trimmed htrim]

/-! ### Numerals -/

/-- The decimal digits of a number, with any zeros before them. -/
inductive Digits : List Char → Nat → Prop
  | one {d : Nat} (hd : d < 10) : Digits [Nat.digitChar d] d
  | snoc {cs : List Char} {n d : Nat} (h : Digits cs n) (hd : d < 10) :
      Digits (cs ++ [Nat.digitChar d]) (10 * n + d)

/-- A whole number as it may be typed. -/
inductive Numeral : List Char → Int → Prop
  | unsigned {cs : List Char} {n : Nat} (h : Digits cs n) : Numeral cs n
  | positive {cs : List Char} {n : Nat} (h : Digits cs n) : Numeral ('+' :: cs) n
  | negative {cs : List Char} {n : Nat} (h : Digits cs n) : Numeral ('-' :: cs) (-n)

theorem exists_digitChar {c : Char} (h : c.isDigit = true) : ∃ d < 10, c = Nat.digitChar d := by
  have hc : 48 ≤ c.toNat ∧ c.toNat ≤ 57 := by
    simpa [Char.isDigit, UInt32.le_iff_toNat_le] using h
  refine ⟨c.toNat - 48, by omega, ?_⟩
  rw [← Char.toNat_inj, Nat.toNat_digitChar_of_lt_ten (by omega)]
  omega

theorem ofDigitChars_snoc {cs : List Char} {d : Nat} (hd : d < 10) :
    Nat.ofDigitChars 10 (cs ++ [Nat.digitChar d]) 0 = 10 * Nat.ofDigitChars 10 cs 0 + d := by
  have hzero : '0'.toNat = 48 := rfl
  rw [Nat.ofDigitChars_append, Nat.ofDigitChars_cons, Nat.ofDigitChars_nil,
    Nat.toNat_digitChar_of_lt_ten hd, hzero, Nat.add_sub_cancel_left]

theorem digits_ofDigitChars {cs : List Char} (hne : cs ≠ []) (h : ∀ c ∈ cs, c.isDigit = true) :
    Digits cs (Nat.ofDigitChars 10 cs 0) := by
  induction cs using List.reverseRecOn with
  | nil => exact absurd rfl hne
  | append_singleton cs c ih =>
    obtain ⟨hcs, hc⟩ := List.forall_mem_append.mp h
    obtain ⟨d, hd, rfl⟩ := exists_digitChar (hc c List.mem_cons_self)
    rw [ofDigitChars_snoc hd]
    by_cases hnil : cs = []
    · subst hnil
      simpa using Digits.one hd
    · exact .snoc (ih hnil hcs) hd

theorem Digits.isDigit {cs : List Char} {n : Nat} (h : Digits cs n) :
    cs ≠ [] ∧ ∀ c ∈ cs, c.isDigit = true := by
  induction h with
  | one hd => simp [Nat.isDigit_digitChar, hd]
  | snoc _ hd ih =>
    refine ⟨by simp, List.forall_mem_append.mpr ⟨ih.2, ?_⟩⟩
    simp [Nat.isDigit_digitChar, hd]

theorem Digits.ofDigitChars {cs : List Char} {n : Nat} (h : Digits cs n) :
    Nat.ofDigitChars 10 cs 0 = n := by
  induction h with
  | @one d hd =>
    have hsnoc := @ofDigitChars_snoc [] d hd
    simpa using hsnoc
  | snoc _ hd ih => rw [ofDigitChars_snoc hd, ih]

theorem readNat?_eq_some_iff {cs : List Char} {n : Nat} : readNat? cs = some n ↔ Digits cs n := by
  constructor
  · intro h
    unfold readNat? at h
    split at h
    · rename_i hcs
      cases h
      exact digits_ofDigitChars hcs.1 (List.all_eq_true.mp hcs.2)
    · cases h
  · intro h
    obtain ⟨hne, hall⟩ := h.isDigit
    rw [readNat?, if_pos ⟨hne, List.all_eq_true.mpr hall⟩, h.ofDigitChars]

theorem readInt?_eq_some_iff {cs : List Char} {n : Int} : readInt? cs = some n ↔ Numeral cs n := by
  constructor
  · intro h
    unfold readInt? at h
    split at h
    · obtain ⟨m, hm, rfl⟩ := Option.map_eq_some_iff.mp h
      exact .negative (readNat?_eq_some_iff.mp hm)
    · obtain ⟨m, hm, rfl⟩ := Option.map_eq_some_iff.mp h
      exact .positive (readNat?_eq_some_iff.mp hm)
    · obtain ⟨m, hm, rfl⟩ := Option.map_eq_some_iff.mp h
      exact .unsigned (readNat?_eq_some_iff.mp hm)
  · intro h
    cases h with
    | negative h => rw [readInt?, readNat?_eq_some_iff.mpr h]; rfl
    | positive h => rw [readInt?, readNat?_eq_some_iff.mpr h]; rfl
    | @unsigned cs n h =>
      -- a digit is no sign
      have hunsigned : readInt? cs = (readNat? cs).map Int.ofNat := by
        unfold readInt?
        split
        · simpa [Char.isDigit] using h.isDigit.2
        · simpa [Char.isDigit] using h.isDigit.2
        · rfl
      rw [hunsigned, readNat?_eq_some_iff.mpr h]
      rfl

theorem Digits.isBlank_eq_false {cs : List Char} {n : Nat} (h : Digits cs n) :
    ∀ c ∈ cs, isBlank c = false := by
  have hall : ∀ d < 10, isBlank (Nat.digitChar d) = false := by decide
  intro c hc
  obtain ⟨d, hd, rfl⟩ := exists_digitChar (h.isDigit.2 c hc)
  exact hall d hd

/-- There are no blanks in a numeral. -/
theorem Numeral.isBlank_eq_false {cs : List Char} {n : Int} (h : Numeral cs n) :
    ∀ c ∈ cs, isBlank c = false := by
  cases h with
  | unsigned h => exact h.isBlank_eq_false
  | positive h => exact List.forall_mem_cons.mpr ⟨by decide, h.isBlank_eq_false⟩
  | negative h => exact List.forall_mem_cons.mpr ⟨by decide, h.isBlank_eq_false⟩

theorem Numeral.trimsTo {cs : List Char} {n : Int} (h : Numeral cs n) : TrimsTo cs cs := by
  refine ⟨[], [], by simp, List.forall_mem_nil _, List.forall_mem_nil _, ?_, ?_⟩
  · exact fun c hc => h.isBlank_eq_false c (List.mem_of_mem_head? hc)
  · exact fun c hc => h.isBlank_eq_false c (List.mem_of_getLast? hc)

end Text

theorem Amount.ofChars?_eq_some_iff {cs : List Char} {a : Amount} :
    ofChars? cs = some a ↔ Text.Numeral cs a.toInt := by
  rw [ofChars?, Option.bind_eq_some_iff, ← Text.readInt?_eq_some_iff]
  simp only [ofInt?_eq_some_iff, exists_eq_right']

end FriendLedger
