import FriendLedger.Currency
import Mathlib.Data.List.TakeWhile

/-! Reading a currency code, for every text. Only a blank text names no currency. What
is read has a code in normal form: trimmed, made of characters that are their own upper
case, and read back as itself. Blanks around a text count for nothing. -/

namespace FriendLedger

set_option autoImplicit false

namespace Text

theorem trim_eq_nil_iff {cs : List Char} : trim cs = [] ↔ ∀ c ∈ cs, isBlank c = true := by
  rw [trim, trimEnd, List.reverse_eq_nil_iff, List.dropWhile_eq_nil_iff]
  simp only [List.mem_reverse]
  constructor
  · intro h
    -- what is left begins with a character that is not blank
    cases hs : trimStart cs with
    | nil => exact List.dropWhile_eq_nil_iff.mp hs
    | cons d ds =>
      have hd : isBlank d = true := h d (by simp [hs])
      have hd' := head?_trimStart cs d (by simp [hs])
      rw [hd] at hd'
      cases hd'
  · intro h c hc
    exact h c (List.dropWhile_subset _ hc)

theorem trim_append_left {bs : List Char} (hb : ∀ c ∈ bs, isBlank c = true) (cs : List Char) :
    trim (bs ++ cs) = trim cs := by
  rw [trim, trimStart, List.dropWhile_append_of_pos hb]
  rfl

theorem trim_append_right {bs : List Char} (hb : ∀ c ∈ bs, isBlank c = true) (cs : List Char) :
    trim (cs ++ bs) = trim cs := by
  by_cases hcs : ∀ c ∈ cs, isBlank c = true
  · have hall : ∀ c ∈ cs ++ bs, isBlank c = true := by
      intro c hc
      rcases List.mem_append.mp hc with hc | hc
      · exact hcs c hc
      · exact hb c hc
    rw [trim_eq_nil_iff.mpr hall, trim_eq_nil_iff.mpr hcs]
  · -- the first character that is not blank is one of `cs`, so the cut leaves `bs` whole
    have hne : (cs.dropWhile isBlank).isEmpty = false := by
      rw [List.isEmpty_eq_false_iff]
      exact fun h => hcs (List.dropWhile_eq_nil_iff.mp h)
    have hstart : trimStart (cs ++ bs) = trimStart cs ++ bs := by
      rw [trimStart, List.dropWhile_append, hne]
      rfl
    have hrev : ∀ c ∈ bs.reverse, isBlank c = true := fun c hc => hb c (List.mem_reverse.mp hc)
    rw [trim, hstart, trimEnd, List.reverse_append, List.dropWhile_append_of_pos hrev]
    rfl

/-- Trimming takes away blanks and nothing else. -/
theorem exists_append_trim (cs : List Char) : ∃ before after,
    cs = before ++ trim cs ++ after ∧ (∀ c ∈ before, isBlank c = true) ∧
      ∀ c ∈ after, isBlank c = true := by
  refine ⟨cs.takeWhile isBlank, ((trimStart cs).reverse.takeWhile isBlank).reverse, ?_,
    fun c hc => List.mem_takeWhile_imp hc,
    fun c hc => List.mem_takeWhile_imp (List.mem_reverse.mp hc)⟩
  have hrest : trim cs ++ ((trimStart cs).reverse.takeWhile isBlank).reverse = trimStart cs := by
    rw [trim, trimEnd, ← List.reverse_append, List.takeWhile_append_dropWhile, List.reverse_reverse]
  rw [List.append_assoc, hrest, trimStart, List.takeWhile_append_dropWhile]

/-- The texts that are trimmed and in upper case are those that both leave alone. -/
theorem upper_trim_eq_self_iff {cs : List Char} :
    upper (trim cs) = cs ↔ Trimmed cs ∧ ∀ c ∈ cs, upperChar c = [c] := by
  constructor
  · intro h
    constructor
    · rw [← h]
      exact (trimmed_trim cs).upper
    · intro c hc
      rw [← h] at hc
      obtain ⟨d, _, hd⟩ := List.mem_flatMap.mp hc
      exact upperChar_of_mem_upperChar hd
  · rintro ⟨ht, hu⟩
    rw [trim_of_trimmed ht, upper_of_forall hu]

end Text

namespace Currency

theorem toList_normalize (s : String) :
    (normalize s).toList = Text.upper (Text.trim s.toList) := by
  rw [normalize, String.toList_ofList]

theorem normalize_eq_empty_iff {s : String} :
    normalize s = "" ↔ ∀ c ∈ s.toList, Text.isBlank c = true := by
  rw [← Text.trim_eq_nil_iff, ← Text.upper_eq_nil_iff, ← toList_normalize,
    String.toList_eq_nil_iff]

theorem normalize_eq_self_iff {s : String} :
    normalize s = s ↔ Text.Trimmed s.toList ∧ ∀ c ∈ s.toList, Text.upperChar c = [c] := by
  rw [← Text.upper_trim_eq_self_iff, ← toList_normalize, String.toList_inj]

/-- A text names no currency exactly when it is blank. -/
theorem ofText?_eq_none_iff {s : String} :
    ofText? s = none ↔ ∀ c ∈ s.toList, Text.isBlank c = true := by
  rw [← normalize_eq_empty_iff, ofText?]
  split
  · rename_i h
    exact iff_of_true rfl h
  · rename_i h
    exact iff_of_false (Option.some_ne_none _) h

theorem ofText?_eq_some_iff {s : String} {c : Currency} :
    ofText? s = some c ↔ c.code = normalize s := by
  rw [ofText?]
  split
  · rename_i h
    exact iff_of_false (Option.some_ne_none c).symm fun hc => c.code_ne_empty (hc.trans h)
  · rw [Option.some.injEq]
    constructor
    · rintro rfl
      rfl
    · intro h
      exact ext_code h.symm

theorem read_eq_ok_iff {s : String} {c : Currency} : read s = .ok c ↔ ofText? s = some c := by
  rw [read]
  cases ofText? s with
  | none => simp only [reduceCtorEq]
  | some d => rw [Except.ok.injEq, Option.some.injEq]

theorem read_eq_error_iff {s : String} {f : Failure} :
    read s = .error f ↔ f = .invalidExpense "currency code is empty" ∧ ofText? s = none := by
  rw [read]
  cases ofText? s with
  | none => rw [Except.error.injEq, eq_comm, and_iff_left rfl]
  | some d => simp only [reduceCtorEq, and_false]

/-- What is read is the upper case of the text between the blanks at its ends, whichever
way the text is divided. -/
theorem read_eq_ok_iff_upper {s : String} {c : Currency} :
    read s = .ok c ↔ ∃ before middle after, s.toList = before ++ middle ++ after ∧
      (∀ ch ∈ before, Text.isBlank ch = true) ∧ (∀ ch ∈ after, Text.isBlank ch = true) ∧
      middle ≠ [] ∧ Text.Trimmed middle ∧ c.code.toList = Text.upper middle := by
  rw [read_eq_ok_iff, ofText?_eq_some_iff, ← String.toList_inj, toList_normalize]
  constructor
  · intro hcode
    obtain ⟨before, after, hs, hb, ha⟩ := Text.exists_append_trim s.toList
    refine ⟨before, _, after, hs, hb, ha, ?_, Text.trimmed_trim s.toList, hcode⟩
    intro hnil
    rw [(Text.upper_eq_nil_iff _).mpr hnil, String.toList_eq_nil_iff] at hcode
    exact c.code_ne_empty hcode
  · rintro ⟨before, middle, after, hs, hb, ha, -, htrim, hcode⟩
    rw [hs, Text.trim_append_right ha, Text.trim_append_left hb, Text.trim_of_trimmed htrim, hcode]

/-- Reading fails on blank texts alone, and of every other text it makes the upper case of
what stands between the blanks at its ends. The code is not empty, has no blank at an end,
is in upper case and reads as itself; further blanks at the ends make no difference. -/
theorem read_normalizes (s : String) :
    (∀ f, read s = .error f ↔
      f = .invalidExpense "currency code is empty" ∧ ∀ ch ∈ s.toList, Text.isBlank ch = true) ∧
    (∀ c, read s = .ok c ↔ ∃ before middle after, s.toList = before ++ middle ++ after ∧
      (∀ ch ∈ before, Text.isBlank ch = true) ∧ (∀ ch ∈ after, Text.isBlank ch = true) ∧
      middle ≠ [] ∧ Text.Trimmed middle ∧ c.code.toList = Text.upper middle) ∧
    (∀ c, read s = .ok c → c.code ≠ "" ∧
      (∀ ch ∈ c.code.toList.head?, Text.isBlank ch = false) ∧
      (∀ ch ∈ c.code.toList.getLast?, Text.isBlank ch = false) ∧
      (∀ ch ∈ c.code.toList, Text.upperChar ch = [ch]) ∧ read c.code = .ok c) ∧
    ∀ before after : String, (∀ ch ∈ before.toList, Text.isBlank ch = true) →
      (∀ ch ∈ after.toList, Text.isBlank ch = true) → read (before ++ s ++ after) = read s := by
  refine ⟨fun f => ?fails, fun c => read_eq_ok_iff_upper, fun c _ => ?normal,
    fun before after hb ha => ?blanks⟩
  case fails => rw [read_eq_error_iff, ofText?_eq_none_iff]
  case normal =>
    obtain ⟨htrim, hupper⟩ := normalize_eq_self_iff.mp c.normalize_code
    exact ⟨c.code_ne_empty, htrim.1, htrim.2, hupper, read_eq_ok_iff.mpr (ofText?_code c)⟩
  case blanks =>
    have hnormal : normalize (before ++ s ++ after) = normalize s := by
      rw [← String.toList_inj, toList_normalize, toList_normalize, String.toList_append,
        String.toList_append, Text.trim_append_right ha, Text.trim_append_left hb]
    simp only [read, ofText?, hnormal]

/-- Nine characters become seven: the blanks go and the sharp s is spelled out. -/
theorem read_normalizes_strasse :
    ∃ c, read " straße\u3000\t" = .ok c ∧ c.code = "STRASSE" ∧ read "STRASSE" = .ok c ∧
      read "\u2003 straße\u3000\t\u0085" = .ok c ∧ read " \u2028" = .error
        (.invalidExpense "currency code is empty") := by
  have hc : ofText? " straße\u3000\t" = some ⟨"STRASSE", by decide, by decide +kernel⟩ := by
    decide +kernel
  obtain ⟨-, -, hnormal, hblanks⟩ := read_normalizes " straße\u3000\t"
  have hread := read_eq_ok_iff.mpr hc
  obtain ⟨-, -, -, -, hagain⟩ := hnormal _ hread
  have hmore : "\u2003 straße\u3000\t\u0085" = "\u2003" ++ " straße\u3000\t" ++ "\u0085" := by
    decide +kernel
  have hblank (t : String) (h : t.toList.all Text.isBlank = true) :
      ∀ ch ∈ t.toList, Text.isBlank ch = true := List.all_eq_true.mp h
  refine ⟨_, hread, rfl, hagain, ?_, ((read_normalizes " \u2028").1 _).mpr ⟨rfl, ?_⟩⟩
  · rw [hmore, hblanks "\u2003" "\u0085" (hblank _ (by decide)) (hblank _ (by decide))]
    exact hread
  · exact hblank _ (by decide)

end Currency
end FriendLedger
