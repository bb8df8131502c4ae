import FriendLedger.Amount
import FriendLedger.Currency

/-! Balances: what a user has with a counterparty, one amount per currency.
Amounts of different currencies are never converted into one another. -/

namespace FriendLedger

set_option autoImplicit false

/-- One amount per currency, in ascending order of the codes. -/
structure Purse where
  entries : List (Currency × Amount)
  ascending : entries.Pairwise fun a b => a.1.code < b.1.code
deriving DecidableEq

namespace Purse

def empty : Purse := ⟨[], .nil⟩

def insertEntry (c : Currency) (a : Amount) : List (Currency × Amount) → List (Currency × Amount)
  | [] => [(c, a)]
  | e :: es =>
    if c.code < e.1.code then (c, a) :: e :: es
    else if e.1.code < c.code then e :: insertEntry c a es
    else (c, a) :: es

theorem eq_or_mem_of_mem_insertEntry {c : Currency} {a : Amount} {e : Currency × Amount}
    {es : List (Currency × Amount)} (h : e ∈ insertEntry c a es) : e = (c, a) ∨ e ∈ es := by
  induction es with
  | nil => simpa [insertEntry] using h
  | cons d es ih =>
    unfold insertEntry at h
    split at h
    · simpa using h
    · split at h
      · rcases List.mem_cons.mp h with rfl | h
        · exact .inr List.mem_cons_self
        · exact (ih h).imp_right (List.mem_cons_of_mem d)
      · rcases List.mem_cons.mp h with rfl | h
        · exact .inl rfl
        · exact .inr (List.mem_cons_of_mem d h)

theorem pairwise_insertEntry {es : List (Currency × Amount)} (c : Currency) (a : Amount)
    (h : es.Pairwise fun a b => a.1.code < b.1.code) :
    (insertEntry c a es).Pairwise fun a b => a.1.code < b.1.code := by
  induction es with
  | nil => simp [insertEntry]
  | cons e es ih =>
    obtain ⟨he, hes⟩ := List.pairwise_cons.mp h
    unfold insertEntry
    split
    · rename_i hlt
      refine List.pairwise_cons.mpr ⟨?_, h⟩
      intro d hd
      rcases List.mem_cons.mp hd with rfl | hd
      · exact hlt
      · exact String.lt_trans hlt (he d hd)
    · split
      · rename_i hgt
        refine List.pairwise_cons.mpr ⟨?_, ih hes⟩
        intro d hd
        rcases eq_or_mem_of_mem_insertEntry hd with rfl | hd
        · exact hgt
        · exact he d hd
      · rename_i hge hle
        refine List.pairwise_cons.mpr ⟨?_, hes⟩
        intro d hd
        have heq : c.code = e.1.code := String.le_antisymm hle hge
        rw [heq]
        exact he d hd

/-- Sets the amount of a currency; an earlier one is replaced. -/
def insert (p : Purse) (c : Currency) (a : Amount) : Purse :=
  ⟨insertEntry c a p.entries, pairwise_insertEntry c a p.ascending⟩

def get? (p : Purse) (c : Currency) : Option Amount := (p.entries.find? (·.1 = c)).map (·.2)

/-- The purse with a further amount, unless the sum leaves the range. -/
def add? (p : Purse) (c : Currency) (a : Amount) : Option Purse :=
  (Amount.add? ((p.get? c).getD 0) a).map (p.insert c)

def ofEntries (es : List (Currency × Amount)) : Purse :=
  es.foldl (fun p e => p.insert e.1 e.2) empty

end Purse

structure Balance where
  counterparty : String
  currencies : Purse
deriving DecidableEq

namespace Balance

def empty (counterparty : String) : Balance := ⟨counterparty, .empty⟩

/-- The amount in a currency, zero when there is none. -/
def inCurrency (b : Balance) (c : Currency) : Amount := (b.currencies.get? c).getD 0

end Balance
end FriendLedger
