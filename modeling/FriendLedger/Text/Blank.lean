/-! Blank characters and the text between them. A character is blank when it
has the property White_Space; trimming takes blanks off both ends and leaves
those inside. -/

namespace FriendLedger.Text

set_option autoImplicit false

/-- The ranges of the property White_Space: twenty-five characters. -/
def blankRanges : List (Nat × Nat) :=
  [(0x9, 0xD), (0x20, 0x20), (0x85, 0x85), (0xA0, 0xA0), (0x1680, 0x1680), (0x2000, 0x200A),
    (0x2028, 0x2029), (0x202F, 0x202F), (0x205F, 0x205F), (0x3000, 0x3000)]

def isBlankCode (n : Nat) : Bool := blankRanges.any fun r => r.1 ≤ n && n ≤ r.2

def isBlank (c : Char) : Bool := isBlankCode c.toNat

def trimStart (cs : List Char) : List Char := cs.dropWhile isBlank

def trimEnd (cs : List Char) : List Char := (cs.reverse.dropWhile isBlank).reverse

def trim (cs : List Char) : List Char := trimEnd (trimStart cs)

/-- A text that no trimming shortens. -/
def Trimmed (cs : List Char) : Prop :=
  (∀ c ∈ cs.head?, isBlank c = false) ∧ (∀ c ∈ cs.getLast?, isBlank c = false)

instance (cs : List Char) : Decidable (Trimmed cs) :=
  @instDecidableAnd _ _ (Option.decidableForallMem _) (Option.decidableForallMem _)

theorem dropWhile_eq_self {cs : List Char} (h : ∀ c ∈ cs.head?, isBlank c = false) :
    cs.dropWhile isBlank = cs := by
  cases cs with
  | nil => rfl
  | cons c cs => simp [h c (by simp)]

theorem head?_trimStart (cs : List Char) : ∀ c ∈ (trimStart cs).head?, isBlank c = false := by
  intro c hc
  induction cs with
  | nil => simp [trimStart] at hc
  | cons d cs ih =>
    by_cases hd : isBlank d = true
    · simp only [trimStart, List.dropWhile_cons, hd, if_true] at hc
      exact ih hc
    · simp only [trimStart, List.dropWhile_cons, hd] at hc
      simp at hc
      subst hc
      simpa using hd

theorem trim_of_trimmed {cs : List Char} (h : Trimmed cs) : trim cs = cs := by
  have hs : trimStart cs = cs := dropWhile_eq_self h.1
  have he : (cs.reverse).dropWhile isBlank = cs.reverse :=
    dropWhile_eq_self (by simpa [List.head?_reverse] using h.2)
  rw [trim, hs, trimEnd, he, List.reverse_reverse]

theorem trimmed_trim (cs : List Char) : Trimmed (trim cs) := by
  constructor
  · intro c hc
    generalize hs : trimStart cs = ds at *
    have hd := head?_trimStart cs
    rw [hs] at hd
    cases ds with
    | nil => simp [trim, hs, trimEnd] at hc
    | cons d ds =>
      have hsuf : (trimEnd (d :: ds)) <+: (d :: ds) := by
        have := List.dropWhile_suffix (l := (d :: ds).reverse) isBlank
        simpa [trimEnd] using List.reverse_prefix.mpr this
      rw [trim, hs] at hc
      obtain ⟨t, ht⟩ := hsuf
      cases he : trimEnd (d :: ds) with
      | nil => simp [he] at hc
      | cons e es =>
        rw [he] at hc ht
        simp at hc
        simp at ht
        subst hc
        exact hd _ (by simp [ht.1])
  · intro c hc
    rw [trim, trimEnd, List.getLast?_reverse] at hc
    exact head?_trimStart _ c hc

theorem trim_trim (cs : List Char) : trim (trim cs) = trim cs := trim_of_trimmed (trimmed_trim cs)

end FriendLedger.Text
