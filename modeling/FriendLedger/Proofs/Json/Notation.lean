import FriendLedger.Json.Reader
import Mathlib.Data.List.TakeWhile

/-! Written texts and numbers. What is written of a text is scanned up to its closing quote
and stands for the characters of the text; what is written of a whole number is scanned up
to its last digit and stands for the number. -/

namespace FriendLedger

set_option autoImplicit false

namespace Json

/-! ### Texts -/

theorem unit?_hexChar {a b : Nat} (ha : a < 16) (hb : b < 16) :
    unit? '0' '0' (Text.hexChar a) (Text.hexChar b) = some (16 * a + b) := by
  have hzero : Text.hexValue? '0' = some 0 := by decide
  simp [unit?, Text.hexNumber?, hzero, Text.hexValue?_hexChar ha, Text.hexValue?_hexChar hb,
    Nat.mul_comm]

/-- A character is escaped by a letter or by its number, or it stands for itself. -/
theorem escapeChar_cases (c : Char) :
    (∃ e, escapeChar c = ['\\', e] ∧ escapeLetter? e = some c) ∨
    (∃ x y, escapeChar c = ['\\', 'u', '0', '0', x, y] ∧ unit? '0' '0' x y = some c.toNat) ∨
    (escapeChar c = [c] ∧ c ≠ '"' ∧ c ≠ '\\' ∧ ¬ c.toNat < 0x20) := by
  unfold escapeChar
  split
  · rename_i h
    exact .inl ⟨c, rfl, by rcases h with rfl | rfl <;> rfl⟩
  · rename_i hquote
    split
    · rename_i h
      exact .inl ⟨'b', rfl, by rw [h]; rfl⟩
    split
    · rename_i h
      exact .inl ⟨'f', rfl, by rw [h]; rfl⟩
    split
    · rename_i h
      exact .inl ⟨'n', rfl, by rw [h]; rfl⟩
    split
    · rename_i h
      exact .inl ⟨'r', rfl, by rw [h]; rfl⟩
    split
    · rename_i h
      exact .inl ⟨'t', rfl, by rw [h]; rfl⟩
    split
    · rename_i h
      refine .inr (.inl ⟨_, _, rfl, ?_⟩)
      rw [unit?_hexChar (by omega) (by omega), Nat.div_add_mod]
    · rename_i h
      exact .inr (.inr ⟨rfl, fun hc => hquote (.inl hc), fun hc => hquote (.inr hc), h⟩)

theorem ne_u_of_escapeLetter? {e c : Char} (h : escapeLetter? e = some c) : e ≠ 'u' := by
  rintro rfl
  cases h

theorem scanText_escapeChar (c : Char) (r : List Char) :
    scanText (escapeChar c ++ r) = (scanText r).map fun p => (escapeChar c ++ p.1, p.2) := by
  rcases escapeChar_cases c with ⟨e, hc, he⟩ | ⟨x, y, hc, hunit⟩ | ⟨hc, hquote, hslash, hplain⟩
  · have hu := ne_u_of_escapeLetter? he
    simp [hc, scanText, he, hu]
  · simp [hc, scanText, hunit]
  · rw [hc, List.singleton_append, scanText, if_neg hplain]
    · rfl
    · exact hquote
    · exact fun _ _ _ _ _ heq _ => hslash heq
    · exact fun _ _ heq _ => hslash heq

theorem units?_escapeChar (c : Char) (r : List Char) :
    units? (escapeChar c ++ r) = (units? r).map (c.toNat :: ·) := by
  rcases escapeChar_cases c with ⟨e, hc, he⟩ | ⟨x, y, hc, hunit⟩ | ⟨hc, -, hslash, -⟩
  · have hu := ne_u_of_escapeLetter? he
    cases hr : units? r <;> simp [hc, units?, he, hu, hr]
  · cases hr : units? r <;> simp [hc, units?, hunit, hr]
  · cases hr : units? r <;> simp [hc, units?, hslash, hr]

theorem scanText_flatMap (cs r : List Char) :
    scanText (cs.flatMap escapeChar ++ '"' :: r) = some (cs.flatMap escapeChar, r) := by
  induction cs with
  | nil => rfl
  | cons c cs ih =>
    rw [List.flatMap_cons, List.append_assoc, scanText_escapeChar, ih]
    rfl

theorem units?_flatMap (cs : List Char) :
    units? (cs.flatMap escapeChar) = some (cs.map Char.toNat) := by
  induction cs with
  | nil => rfl
  | cons c cs ih =>
    rw [List.flatMap_cons, units?_escapeChar, ih]
    rfl

theorem not_half_toNat (c : Char) : isHighHalf c.toNat = false ∧ isLowHalf c.toNat = false := by
  have hvalid : c.toNat < 0xD800 ∨ 0xDFFF < c.toNat ∧ c.toNat < 0x110000 := c.valid
  simp only [isHighHalf, isLowHalf, Bool.and_eq_false_iff, decide_eq_false_iff_not]
  omega

/-- Characters are no halves, so each of them is joined with nothing. -/
theorem joinHalves?_toNat (cs : List Char) : joinHalves? (cs.map Char.toNat) = some cs := by
  induction cs with
  | nil => rfl
  | cons c cs ih =>
    obtain ⟨hhigh, hlow⟩ := not_half_toNat c
    cases cs with
    | nil => simp [joinHalves?, hhigh, hlow]
    | cons d cs =>
      simp only [List.map_cons] at ih ⊢
      simp [joinHalves?, hhigh, hlow, ih]

theorem scanText_escape (s : String) (r : List Char) :
    scanText (escape s ++ '"' :: r) = some (escape s, r) := scanText_flatMap s.toList r

theorem decodeChars?_escape (s : String) : decodeChars? (escape s) = some s.toList := by
  rw [decodeChars?, escape, units?_flatMap, Option.bind_some, joinHalves?_toNat]

theorem text?_ofText (s : String) : (ofText s).text? = some s := by
  rw [ofText, text?, decodeChars?_escape, Option.map_some, String.ofList_toList]

/-! ### Numbers -/

theorem isDigit_of_mem_toDigits {n : Nat} {c : Char} (h : c ∈ Nat.toDigits 10 n) :
    c.isDigit = true := Nat.isDigit_of_mem_toDigits (by decide) (by decide) h

/-- Only zero is written with a leading zero. -/
theorem head?_toDigits_ne {n : Nat} (h : 0 < n) : (Nat.toDigits 10 n).head? ≠ some '0' := by
  induction n using Nat.strongRecOn with
  | _ n ih =>
    rcases Nat.lt_or_ge n 10 with hlt | hge
    · rw [Nat.toDigits_of_lt_base hlt, List.head?_cons, ne_eq, Option.some.injEq, ← Char.toNat_inj,
        Nat.toNat_digitChar_of_lt_ten hlt]
      change ¬ 48 + n = 48
      omega
    · have hsplit := Nat.toDigits_append_toDigits (b := 10) (n := n / 10) (d := n % 10)
        (by decide) (by omega) (Nat.mod_lt n (by decide))
      rw [Nat.div_add_mod] at hsplit
      have hfirst := ih (n / 10) (by omega) (by omega)
      cases hds : Nat.toDigits 10 (n / 10) with
      | nil => exact absurd hds Nat.toDigits_ne_nil
      | cons c cs =>
        rw [hds] at hfirst hsplit
        rw [← hsplit]
        exact hfirst

/-- What may follow a whole number: nothing that would belong to it. -/
def Ends (r : List Char) : Prop :=
  ∀ c ∈ r.head?, c.isDigit = false ∧ c ≠ '.' ∧ c ≠ 'e' ∧ c ≠ 'E'

variable {r : List Char} (h : Ends r)
include h

theorem Ends.spanDigits {ds : List Char} (hds : ∀ c ∈ ds, c.isDigit = true) :
    spanDigits (ds ++ r) = (ds, r) := by
  have hr : r.takeWhile Char.isDigit = [] ∧ r.dropWhile Char.isDigit = r := by
    cases r with
    | nil => exact ⟨rfl, rfl⟩
    | cons c r =>
      have hc := (h c rfl).1
      simp [hc]
  rw [Json.spanDigits, List.takeWhile_append_of_pos hds, List.dropWhile_append_of_pos hds, hr.1,
    hr.2, List.append_nil]

theorem Ends.scanWhole (n : Nat) :
    scanWhole (Nat.toDigits 10 n ++ r) = some (Nat.toDigits 10 n, r) := by
  rw [Json.scanWhole, h.spanDigits fun c hc => isDigit_of_mem_toDigits hc]
  rcases Nat.eq_zero_or_pos n with rfl | hn
  · rfl
  · have hhead := head?_toDigits_ne hn
    cases hds : Nat.toDigits 10 n with
    | nil => exact absurd hds Nat.toDigits_ne_nil
    | cons c cs =>
      rw [hds, List.head?_cons, ne_eq, Option.some.injEq] at hhead
      split
      · rename_i heq
        cases heq
      · rename_i heq
        cases heq
        exact absurd rfl hhead
      · rfl

theorem Ends.scanUnsigned (n : Nat) :
    scanUnsigned (Nat.toDigits 10 n ++ r) = some (Nat.toDigits 10 n, r) := by
  have hfraction : scanFraction r = some ([], r) := by
    cases r with
    | nil => rfl
    | cons c r =>
      obtain ⟨-, hpoint, -, -⟩ := h c rfl
      simp [scanFraction, hpoint]
  have hexponent : scanExponent r = some ([], r) := by
    cases r with
    | nil => rfl
    | cons c r =>
      obtain ⟨-, -, hlower, hupper⟩ := h c rfl
      simp [scanExponent, hlower, hupper]
  simp [Json.scanUnsigned, h.scanWhole, hfraction, hexponent]

theorem Ends.scanNumber (n : Int) :
    scanNumber (Text.writeInt n ++ r) = some (Text.writeInt n, r) := by
  unfold Text.writeInt
  split
  · simp [Json.scanNumber, h.scanUnsigned]
  · have hscan := h.scanUnsigned n.natAbs
    cases hds : Nat.toDigits 10 n.natAbs with
    | nil => exact absurd hds Nat.toDigits_ne_nil
    | cons c cs =>
      have hc : c.isDigit = true := isDigit_of_mem_toDigits (n := n.natAbs) (by simp [hds])
      have hminus : c ≠ '-' := by
        rintro rfl
        cases hc
      rw [hds] at hscan
      simp only [List.cons_append] at hscan ⊢
      simp [Json.scanNumber, hminus, hscan]

omit h

theorem writeInt_ne_minus_zero (n : Int) : Text.writeInt n ≠ ['-', '0'] := by
  intro h
  have hzero : some n = some 0 := by
    rw [← Text.readInt?_writeInt n, h]
    rfl
  cases hzero
  cases h

theorem int?_ofInt (n : Int) : (ofInt n).int? = some n := by
  rw [ofInt, int?, if_neg (writeInt_ne_minus_zero n), Text.readInt?_writeInt]

theorem amount?_ofAmount (a : Amount) : (ofAmount a).amount? = some a := by
  have hint : (ofAmount a).int? = some a.toInt := int?_ofInt a.toInt
  rw [amount?, hint, Option.bind_some, Amount.ofInt?_toInt]

end Json
end FriendLedger
