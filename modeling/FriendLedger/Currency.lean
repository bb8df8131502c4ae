import FriendLedger.Failure
import FriendLedger.Text.Quoted
import FriendLedger.Text.UpperCase

/-! Currency codes: any text that is not blank, trimmed and in upper case. A code
is its own normal form, so a stored code reads back as the same currency. -/

namespace FriendLedger

set_option autoImplicit false

namespace Currency

def normalize (s : String) : String := String.ofList (Text.upper (Text.trim s.toList))

theorem normalize_normalize (s : String) : normalize (normalize s) = normalize s := by
  simp only [normalize, String.toList_ofList]
  rw [Text.trim_of_trimmed (Text.trimmed_trim s.toList).upper, Text.upper_upper]

end Currency

structure Currency where
  code : String
  code_ne_empty : code ≠ ""
  normalize_code : Currency.normalize code = code
deriving DecidableEq

namespace Currency

def ofText? (s : String) : Option Currency :=
  if h : normalize s = "" then none else some ⟨normalize s, h, normalize_normalize s⟩

def read (s : String) : Except Failure Currency :=
  match ofText? s with
  | some c => .ok c
  | none => .error (.invalidExpense "currency code is empty")

def decode (s : String) : Except Failure Currency :=
  match ofText? s with
  | some c => .ok c
  | none => .error (.corruptRow ("invalid stored currency " ++ Text.quoted s))

theorem ext_code {a b : Currency} (h : a.code = b.code) : a = b := by
  cases a
  cases b
  cases h
  rfl

theorem ofText?_code (c : Currency) : ofText? c.code = some c := by
  have h : normalize c.code ≠ "" := by
    rw [c.normalize_code]
    exact c.code_ne_empty
  rw [ofText?, dif_neg h]
  exact congrArg some (ext_code c.normalize_code)

theorem decode_code (c : Currency) : decode c.code = .ok c := by
  rw [decode, ofText?_code]

end Currency
end FriendLedger
