/-! Whole numbers in decimal notation. Reading takes an optional sign and at
least one ASCII digit, and nothing else; writing has a sign only below zero. -/

namespace FriendLedger.Text

set_option autoImplicit false

def readNat? (cs : List Char) : Option Nat :=
  if cs ≠ [] ∧ cs.all Char.isDigit then some (Nat.ofDigitChars 10 cs 0) else none

def readInt? : List Char → Option Int
  | '-' :: cs => (readNat? cs).map fun n : Nat => -(n : Int)
  | '+' :: cs => (readNat? cs).map Int.ofNat
  | cs => (readNat? cs).map Int.ofNat

def writeInt (n : Int) : List Char :=
  if n < 0 then '-' :: Nat.toDigits 10 n.natAbs else Nat.toDigits 10 n.natAbs

theorem readNat?_toDigits (n : Nat) : readNat? (Nat.toDigits 10 n) = some n := by
  have hd : (Nat.toDigits 10 n).all Char.isDigit = true :=
    List.all_eq_true.mpr fun c hc => Nat.isDigit_of_mem_toDigits (by decide) (by decide) hc
  rw [readNat?, if_pos ⟨Nat.toDigits_ne_nil, hd⟩, Nat.ofDigitChars_toDigits (by decide) (by decide)]

theorem readInt?_writeInt (n : Int) : readInt? (writeInt n) = some n := by
  unfold writeInt
  split
  · rw [readInt?, readNat?_toDigits, Option.map_some]
    exact congrArg some (by omega)
  · rename_i hn
    cases hd : Nat.toDigits 10 n.natAbs with
    | nil => exact absurd hd Nat.toDigits_ne_nil
    | cons c cs =>
      have hc : c.isDigit = true :=
        Nat.isDigit_of_mem_toDigits (n := n.natAbs) (b := 10) (by decide) (by decide) (by simp [hd])
      have hr : readInt? (c :: cs) = (readNat? (c :: cs)).map Int.ofNat := by
        unfold readInt?
        split
        · simp_all [Char.isDigit]
        · simp_all [Char.isDigit]
        · rfl
      rw [hr, ← hd, readNat?_toDigits, Option.map_some]
      exact congrArg some (Int.natAbs_of_nonneg (by omega))

end FriendLedger.Text
