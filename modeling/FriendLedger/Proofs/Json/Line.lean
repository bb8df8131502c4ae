import FriendLedger.Proofs.Json.Spelling

/-! Documents on one line. No control character is left in what is written of a document,
so the line that it is written on ends where the document ends. -/

namespace FriendLedger.Json

set_option autoImplicit false

/-- No control character is among them, least of all the end of a line. -/
def Inline (cs : List Char) : Prop := ∀ c ∈ cs, 0x20 ≤ c.toNat

@[simp] theorem inline_nil : Inline [] := List.forall_mem_nil _

@[simp] theorem inline_cons {c : Char} {cs : List Char} :
    Inline (c :: cs) ↔ 0x20 ≤ c.toNat ∧ Inline cs := List.forall_mem_cons

@[simp] theorem inline_append {cs ds : List Char} :
    Inline (cs ++ ds) ↔ Inline cs ∧ Inline ds := List.forall_mem_append

theorem Inline.newline_not_mem {cs : List Char} (h : Inline cs) : '\n' ∉ cs := by
  intro hmem
  have hge := h _ hmem
  contradiction

/-! ### Texts and numbers -/

theorem le_toNat_hexChar {n : Nat} (h : n < 16) : 0x20 ≤ (Text.hexChar n).toNat := by
  revert n
  decide

theorem inline_escapeChar (c : Char) : Inline (escapeChar c) := by
  unfold escapeChar
  split
  · rename_i h
    rcases h with rfl | rfl <;> simp
  -- the five controls that are escaped by a letter
  iterate 5
    split
    · simp
  split
  · rename_i h
    simp [le_toNat_hexChar (show c.toNat / 16 < 16 by omega),
      le_toNat_hexChar (show c.toNat % 16 < 16 by omega)]
  · rename_i h
    simpa using h

theorem inline_escape (s : String) : Inline (escape s) := by
  intro d hd
  obtain ⟨c, -, hc⟩ := List.mem_flatMap.mp hd
  exact inline_escapeChar c d hc

theorem inline_quote (s : String) : Inline (quote (escape s)) := by
  simp [quote, inline_escape]

theorem inline_writeInt (n : Int) : Inline (Text.writeInt n) := by
  have hdigits (m : Nat) : Inline (Nat.toDigits 10 m) := by
    intro c hc
    have hdigit := isDigit_of_mem_toDigits hc
    simp only [Char.isDigit, Bool.and_eq_true, decide_eq_true_eq] at hdigit
    exact Nat.le_trans (by decide) hdigit.1
  unfold Text.writeInt
  split
  · simp [hdigits]
  · exact hdigits _

/-! ### Documents -/

theorem inline_compactItems {xs : List Json} (h : ∀ x ∈ xs, Inline x.compact) :
    Inline (compactItems xs) := by
  induction xs with
  | nil => simp [compactItems]
  | cons x xs ih =>
    obtain ⟨hx, hxs⟩ := List.forall_mem_cons.mp h
    simp [compactItems, hx, ih hxs]

theorem inline_compactFields {fs : List (String × Json)} (h : ∀ f ∈ fs, Inline f.2.compact) :
    Inline (compactFields (fs.map fun f => (escape f.1, f.2))) := by
  induction fs with
  | nil => simp [compactFields]
  | cons f fs ih =>
    obtain ⟨hf, hfs⟩ := List.forall_mem_cons.mp h
    simp [compactFields, inline_quote, hf, ih hfs]

theorem Composed.inline_compact {j : Json} (h : j.Composed) : Inline j.compact := by
  induction h with
  | null => simp [compact]
  | bool b => cases b <;> simp [compact]
  | int n => exact inline_writeInt n
  | text s => exact inline_quote s
  | @array xs _ ih =>
    cases xs with
    | nil => simp [compact]
    | cons x xs =>
      obtain ⟨hx, hxs⟩ := List.forall_mem_cons.mp ih
      simp [compact, hx, inline_compactItems hxs]
  | @fields fs _ ih =>
    cases fs with
    | nil => simp [ofFields, compact]
    | cons f fs =>
      obtain ⟨hf, hfs⟩ := List.forall_mem_cons.mp ih
      simp [ofFields, compact, inline_quote, hf, inline_compactFields hfs]

end FriendLedger.Json
