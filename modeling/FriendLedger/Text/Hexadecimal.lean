/-! Digits in base sixteen: read in either case, written in lower case. -/

namespace FriendLedger.Text

set_option autoImplicit false

def hexValue? (c : Char) : Option Nat :=
  let n := c.toNat
  if 48 ≤ n ∧ n < 58 then some (n - 48)
  else if 97 ≤ n ∧ n < 103 then some (n - 87)
  else if 65 ≤ n ∧ n < 71 then some (n - 55)
  else none

def isHexDigit (c : Char) : Bool := (hexValue? c).isSome

def hexChar (n : Nat) : Char := Char.ofNat (if n < 10 then 48 + n else 87 + n)

def hexNumber? (cs : List Char) : Option Nat :=
  (cs.mapM hexValue?).map (·.foldl (fun n d => n * 16 + d) 0)

theorem hexValue?_hexChar {n : Nat} (h : n < 16) : hexValue? (hexChar n) = some n := by
  have all : ∀ d : Fin 16, hexValue? (hexChar d.val) = some d.val := by decide
  exact all ⟨n, h⟩

end FriendLedger.Text
