import FriendLedger.Text.Decimal

/-! Amounts and times: whole numbers in the range of sixty-four bits. Sums are
checked. A sum is taken from left to right, and it fails as soon as a partial
sum leaves the range; when it does not fail it is the exact sum. -/

namespace FriendLedger

set_option autoImplicit false

abbrev Amount := Int64

namespace Amount

def InRange (n : Int) : Prop := Int64.minValue.toInt ≤ n ∧ n ≤ Int64.maxValue.toInt

instance (n : Int) : Decidable (InRange n) := inferInstanceAs (Decidable (_ ∧ _))

def ofInt? (n : Int) : Option Amount := if InRange n then some (Int64.ofInt n) else none

def add? (a b : Amount) : Option Amount := ofInt? (a.toInt + b.toInt)

def sum? (as : List Amount) : Option Amount := as.foldlM add? 0

def ofChars? (cs : List Char) : Option Amount := (Text.readInt? cs).bind ofInt?

def toChars (a : Amount) : List Char := Text.writeInt a.toInt

theorem inRange_toInt (a : Amount) : InRange a.toInt :=
  ⟨Int64.le_toInt a, Int64.toInt_le a⟩

theorem toInt_ofInt_of_inRange {n : Int} (h : InRange n) : (Int64.ofInt n).toInt = n := by
  obtain ⟨hmin, hmax⟩ := h
  rw [Int64.toInt_minValue] at hmin
  rw [Int64.toInt_maxValue] at hmax
  exact Int64.toInt_ofInt_of_le hmin (Int.lt_of_le_sub_one hmax)

theorem ofInt?_eq_some_iff {n : Int} {a : Amount} : ofInt? n = some a ↔ a.toInt = n := by
  unfold ofInt?
  split
  · rename_i h
    rw [Option.some.injEq]
    constructor
    · rintro rfl
      exact toInt_ofInt_of_inRange h
    · rintro rfl
      exact Int64.ofInt_toInt a
  · rename_i h
    simp only [reduceCtorEq, false_iff]
    rintro rfl
    exact h (inRange_toInt a)

theorem ofInt?_toInt (a : Amount) : ofInt? a.toInt = some a := ofInt?_eq_some_iff.mpr rfl

theorem ofInt?_eq_none_iff {n : Int} : ofInt? n = none ↔ ¬ InRange n := by
  unfold ofInt?
  split <;> simp_all

theorem ofChars?_toChars (a : Amount) : ofChars? a.toChars = some a := by
  rw [ofChars?, toChars, Text.readInt?_writeInt, Option.bind_some, ofInt?_toInt]

end Amount
end FriendLedger
