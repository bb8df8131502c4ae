/-! Ids of expenses and shares: thirty-two hexadecimal digits. They are written
in one way, in lower case with four hyphens, and read in four; what is written
reads back as the same id. -/

namespace FriendLedger

set_option autoImplicit false

structure Id where
  digits : List (Fin 16)
  length_digits : digits.length = 32
deriving DecidableEq

namespace Id

def digitChar (d : Fin 16) : Char := Char.ofNat (if d.val < 10 then 48 + d.val else 87 + d.val)

def digit? (c : Char) : Option (Fin 16) :=
  let n := c.toNat
  if h : 48 ≤ n ∧ n < 58 then some ⟨n - 48, by omega⟩
  else if h : 97 ≤ n ∧ n < 103 then some ⟨n - 87, by omega⟩
  else if h : 65 ≤ n ∧ n < 71 then some ⟨n - 55, by omega⟩
  else none

/-- Groups of eight, four, four, four and all remaining characters. -/
def hyphenate (cs : List Char) : List Char :=
  cs.take 8 ++ '-' :: (cs.drop 8).take 4 ++ '-' :: (cs.drop 12).take 4 ++
    '-' :: (cs.drop 16).take 4 ++ '-' :: cs.drop 20

def toChars (i : Id) : List Char := hyphenate (i.digits.map digitChar)

def toText (i : Id) : String := String.ofList i.toChars

def ofDigits? (cs : List Char) : Option Id :=
  match cs.mapM digit? with
  | some ds => if h : ds.length = 32 then some ⟨ds, h⟩ else none
  | none => none

def ofHyphenated? (cs : List Char) : Option Id :=
  let plain := cs.filter (· != '-')
  if hyphenate plain = cs then ofDigits? plain else none

/-- Digits alone, hyphenated, hyphenated in braces, hyphenated after `urn:uuid:`. -/
def ofChars? (cs : List Char) : Option Id :=
  if cs.length = 32 then ofDigits? cs
  else if cs.length = 36 then ofHyphenated? cs
  else if cs.length = 38 ∧ cs.head? = some '\x7b' ∧ cs.getLast? = some '\x7d' then
    ofHyphenated? cs.tail.dropLast
  else if cs.length = 45 ∧ (cs.take 9).map Char.toLower = "urn:uuid:".toList then
    ofHyphenated? (cs.drop 9)
  else none

def ofText? (s : String) : Option Id := ofChars? s.toList

/-- The last `k` digits of `n` in base sixteen. -/
def lastDigits : Nat → Nat → List (Fin 16)
  | 0, _ => []
  | k + 1, n => lastDigits k (n / 16) ++ [Fin.ofNat 16 n]

theorem length_lastDigits (k n : Nat) : (lastDigits k n).length = k := by
  induction k generalizing n with
  | zero => rfl
  | succ k ih => simp [lastDigits, ih]

/-- The id handed out under the number `n`. -/
def minted (n : Nat) : Id where
  digits := [0, 0, 0, 0, 0, 0, 0, 0, 0, 0, 0, 0, 4, 0, 0, 0, 8, 0, 0, 0] ++ lastDigits 12 n
  length_digits := by simp [length_lastDigits]

/-- How many ids there are to hand out. -/
def capacity : Nat := Nat.pow 16 12

theorem digit?_digitChar (d : Fin 16) : digit? (digitChar d) = some d := by
  revert d
  decide

theorem digitChar_ne_hyphen (d : Fin 16) : digitChar d ≠ '-' := by
  revert d
  decide

theorem mapM_digit?_map (ds : List (Fin 16)) : (ds.map digitChar).mapM digit? = some ds := by
  induction ds with
  | nil => rfl
  | cons d ds ih => simp [List.mapM_cons, digit?_digitChar, ih]

theorem take_drop_groups (cs : List Char) :
    cs.take 8 ++ ((cs.drop 8).take 4 ++ ((cs.drop 12).take 4 ++
      ((cs.drop 16).take 4 ++ cs.drop 20))) = cs := by
  have h3 : (cs.drop 16).take 4 ++ cs.drop 20 = cs.drop 16 := by
    rw [show cs.drop 20 = (cs.drop 16).drop 4 by simp, List.take_append_drop]
  have h2 : (cs.drop 12).take 4 ++ cs.drop 16 = cs.drop 12 := by
    rw [show cs.drop 16 = (cs.drop 12).drop 4 by simp, List.take_append_drop]
  have h1 : (cs.drop 8).take 4 ++ cs.drop 12 = cs.drop 8 := by
    rw [show cs.drop 12 = (cs.drop 8).drop 4 by simp, List.take_append_drop]
  rw [h3, h2, h1, List.take_append_drop]

theorem filter_hyphenate {cs : List Char} (h : '-' ∉ cs) :
    (hyphenate cs).filter (· != '-') = cs := by
  have keep (ds : List Char) (hs : ds ⊆ cs) : ds.filter (· != '-') = ds := by
    rw [List.filter_eq_self]
    intro c hc
    have hne : c ≠ '-' := fun he => h (he ▸ hs hc)
    simpa using hne
  have part (k j : Nat) : (cs.drop k).take j ⊆ cs :=
    fun c hc => List.mem_of_mem_drop (List.mem_of_mem_take hc)
  simp only [hyphenate, List.cons_append, List.append_assoc, List.filter_append,
    List.filter_cons, bne_self_eq_false, Bool.false_eq_true, if_false,
    keep _ (List.take_subset 8 cs), keep _ (part _ _), keep _ (List.drop_subset 20 cs)]
  exact take_drop_groups cs

theorem length_hyphenate {cs : List Char} (h : cs.length = 32) : (hyphenate cs).length = 36 := by
  simp [hyphenate, h]

theorem ofDigits?_map (i : Id) : ofDigits? (i.digits.map digitChar) = some i := by
  rw [ofDigits?, mapM_digit?_map]
  exact dif_pos i.length_digits

theorem ofChars?_toChars (i : Id) : ofChars? i.toChars = some i := by
  have hl : (i.digits.map digitChar).length = 32 := by simp [i.length_digits]
  have hn : '-' ∉ i.digits.map digitChar := by
    intro hm
    obtain ⟨d, _, hd⟩ := List.mem_map.mp hm
    exact digitChar_ne_hyphen d hd
  have hw := length_hyphenate hl
  rw [ofChars?, toChars, if_neg (by omega), if_pos hw]
  simp only [ofHyphenated?, filter_hyphenate hn, if_true, ofDigits?_map]

theorem ofText?_toText (i : Id) : ofText? i.toText = some i := by
  rw [ofText?, toText, String.toList_ofList, ofChars?_toChars]

theorem toText_inj {i j : Id} (h : i.toText = j.toText) : i = j := by
  have := ofText?_toText i
  rw [h, ofText?_toText] at this
  exact (Option.some.inj this).symm

end Id
end FriendLedger
