import FriendLedger.Text.Blank
import FriendLedger.Text.UpperCase.Table

/-! Upper-case text. Every character is replaced by its upper-case form, which
may have several characters; no language has rules of its own. A form is never
empty, consists of characters that are their own form, and is blank exactly
when the character is. Hence upper case is a normal form, and it leaves a
trimmed text trimmed. -/

namespace FriendLedger.Text

set_option autoImplicit false

namespace UpperCase

def Run.covers (r : Run) (n : Nat) : Bool :=
  r.first ≤ n && n ≤ r.last && (n - r.first) % r.step == 0

def Run.image (r : Run) (n : Nat) : Nat := r.upper + (n - r.first)

def form (n : Nat) : List Nat :=
  match runs.find? (·.covers n) with
  | some r => [r.image n]
  | none =>
    match expansions.find? (·.letter == n) with
    | some e => e.form
    | none => [n]

/-- In neither list, hence its own upper-case form. -/
def isSettled (n : Nat) : Bool :=
  runs.all (fun r => !r.covers n) && expansions.all (fun e => !(e.letter == n))

/-- No blank character and no gap in the code space from `lo` to `hi`. -/
def isInked (lo hi : Nat) : Bool :=
  (hi < 0xD800 || (0xDFFF < lo && hi < 0x110000)) &&
    blankRanges.all (fun b => hi < b.1 || b.2 < lo)

/-- The letters lie on a grid of step two, or there is one letter. -/
def Run.isSparse (r : Run) : Bool := r.step == 2 || r.first == r.last

/-- No form of the first run is a letter of the second. -/
def Run.isApart (r q : Run) : Bool :=
  Nat.blt (r.image r.last) q.first || Nat.blt q.last r.upper ||
    (r.isSparse && q.step == 2 && (r.upper + q.first) % 2 == 1)

def Run.isSound (r : Run) : Bool :=
  isInked r.first r.last && isInked r.upper (r.image r.last) && runs.all r.isApart &&
    expansions.all (fun e => r.isApart ⟨e.letter, e.letter, 2, 0⟩)

def Expansion.isSound (e : Expansion) : Bool :=
  isInked e.letter e.letter && !e.form.isEmpty &&
    e.form.all (fun n => isInked n n && isSettled n)

theorem runs_isSound : runs.all Run.isSound = true := by decide +kernel

theorem expansions_isSound : expansions.all Expansion.isSound = true := by decide +kernel

theorem form_of_isSettled {n : Nat} (h : isSettled n = true) : form n = [n] := by
  simp only [isSettled, Bool.and_eq_true, List.all_eq_true, Bool.not_eq_true'] at h
  have hr : runs.find? (·.covers n) = none := by
    rw [List.find?_eq_none]
    intro r hmem
    simp [h.1 r hmem]
  have he : expansions.find? (·.letter == n) = none := by
    rw [List.find?_eq_none]
    intro e hmem
    simp [h.2 e hmem]
  simp only [form, hr, he]

theorem isBlankCode_of_isInked {lo hi n : Nat} (h : isInked lo hi = true) (hl : lo ≤ n)
    (hh : n ≤ hi) : isBlankCode n = false := by
  simp only [isInked, Bool.and_eq_true, List.all_eq_true, Bool.or_eq_true, decide_eq_true_eq] at h
  simp only [isBlankCode, List.any_eq_false, Bool.and_eq_true, decide_eq_true_eq]
  intro b hb
  have := h.2 b hb
  omega

theorem isValidChar_of_isInked {lo hi n : Nat} (h : isInked lo hi = true) (hl : lo ≤ n)
    (hh : n ≤ hi) : n.isValidChar := by
  simp only [isInked, Bool.and_eq_true, Bool.or_eq_true, decide_eq_true_eq] at h
  unfold Nat.isValidChar
  omega

theorem Run.covers_iff (r : Run) (n : Nat) :
    r.covers n = true ↔ r.first ≤ n ∧ n ≤ r.last ∧ (n - r.first) % r.step = 0 := by
  simp [Run.covers, and_assoc]

theorem Run.not_covers_image {r q : Run} {n : Nat} (hq : r.isApart q = true)
    (hn : r.covers n = true) : q.covers (r.image n) = false := by
  rw [← Bool.not_eq_true, Run.covers_iff]
  rintro ⟨hf', hl', hs'⟩
  obtain ⟨hf, hl, hs⟩ := (r.covers_iff n).mp hn
  simp only [Run.isApart, Run.isSparse, Run.image, Bool.or_eq_true, Bool.and_eq_true,
    Nat.blt_eq, beq_iff_eq] at hq hf' hl' hs'
  rcases hq with (hq | hq) | ⟨⟨ht | ht, h2⟩, hp⟩
  · omega
  · omega
  · rw [h2] at hs'
    rw [ht] at hs
    omega
  · rw [h2] at hs'
    omega

theorem Run.isSettled_image {r : Run} {n : Nat} (hr : r ∈ runs) (hn : r.covers n = true) :
    isSettled (r.image n) = true := by
  have hs := List.all_eq_true.mp runs_isSound r hr
  simp only [Run.isSound, Bool.and_eq_true, List.all_eq_true] at hs
  simp only [isSettled, Bool.and_eq_true, List.all_eq_true, Bool.not_eq_true']
  constructor
  · intro q hq
    exact Run.not_covers_image (hs.1.2 q hq) hn
  · intro e he
    have := Run.not_covers_image (hs.2 e he) hn
    rw [← Bool.not_eq_true, Run.covers_iff] at this
    rw [← Bool.not_eq_true, beq_iff_eq]
    intro heq
    exact this ⟨Nat.le_of_eq heq, Nat.le_of_eq heq.symm, by simp [heq]⟩

/-- What a form is made of, for letters of either list and for all others. -/
theorem form_cases (n : Nat) :
    form n = [n] ∨ (form n ≠ [] ∧ isBlankCode n = false ∧
      ∀ m ∈ form n, m.isValidChar ∧ isBlankCode m = false ∧ isSettled m = true) := by
  cases hr : runs.find? (·.covers n) with
  | some r =>
    right
    have hmem := List.mem_of_find?_eq_some hr
    have hcov : r.covers n = true := by simpa using List.find?_some hr
    have hs := List.all_eq_true.mp runs_isSound r hmem
    simp only [Run.isSound, Bool.and_eq_true] at hs
    have hset := Run.isSettled_image hmem hcov
    simp only [Run.covers, Bool.and_eq_true, decide_eq_true_eq] at hcov
    have hle : r.upper ≤ r.image n ∧ r.image n ≤ r.image r.last := by
      simp only [Run.image]
      omega
    simp only [form, hr]
    refine ⟨by simp, isBlankCode_of_isInked hs.1.1.1 hcov.1.1 hcov.1.2, ?_⟩
    intro m hm
    rw [List.mem_singleton] at hm
    subst hm
    exact ⟨isValidChar_of_isInked hs.1.1.2 hle.1 hle.2,
      isBlankCode_of_isInked hs.1.1.2 hle.1 hle.2, hset⟩
  | none =>
    cases he : expansions.find? (·.letter == n) with
    | some e =>
      right
      have hmem := List.mem_of_find?_eq_some he
      have hn : e.letter = n := by simpa using List.find?_some he
      have hs := List.all_eq_true.mp expansions_isSound e hmem
      simp only [Expansion.isSound, Bool.and_eq_true, List.all_eq_true, Bool.not_eq_true',
        List.isEmpty_eq_false_iff] at hs
      simp only [form, hr, he]
      refine ⟨hs.1.2, hn ▸ isBlankCode_of_isInked hs.1.1 (Nat.le_refl _) (Nat.le_refl _), ?_⟩
      intro m hm
      have := hs.2 m hm
      exact ⟨isValidChar_of_isInked this.1 (Nat.le_refl _) (Nat.le_refl _),
        isBlankCode_of_isInked this.1 (Nat.le_refl _) (Nat.le_refl _), this.2⟩
    | none => exact .inl (by simp only [form, hr, he])

end UpperCase

def upperChar (c : Char) : List Char := (UpperCase.form c.toNat).map Char.ofNat

def upper (cs : List Char) : List Char := cs.flatMap upperChar

theorem toNat_ofNat_of_isValidChar {n : Nat} (h : n.isValidChar) : (Char.ofNat n).toNat = n := by
  rw [Char.ofNat, dif_pos h]
  rfl

theorem upperChar_cases (c : Char) :
    upperChar c = [c] ∨ (upperChar c ≠ [] ∧ isBlank c = false ∧
      ∀ d ∈ upperChar c, isBlank d = false ∧ upperChar d = [d]) := by
  rcases UpperCase.form_cases c.toNat with h | ⟨hne, hb, hall⟩
  · left
    simp [upperChar, h]
  · right
    refine ⟨by simpa [upperChar] using hne, hb, ?_⟩
    intro d hd
    obtain ⟨m, hm, rfl⟩ := List.mem_map.mp hd
    obtain ⟨hv, hmb, hs⟩ := hall m hm
    have hn := toNat_ofNat_of_isValidChar hv
    exact ⟨by rw [isBlank, hn]; exact hmb,
      by simp [upperChar, hn, UpperCase.form_of_isSettled hs]⟩

theorem upperChar_ne_nil (c : Char) : upperChar c ≠ [] := by
  rcases upperChar_cases c with h | ⟨h, _⟩
  · simp [h]
  · exact h

theorem isBlank_of_mem_upperChar {c d : Char} (h : d ∈ upperChar c) : isBlank d = isBlank c := by
  rcases upperChar_cases c with he | ⟨_, hb, hall⟩
  · rw [he, List.mem_singleton] at h
    rw [h]
  · rw [hb, (hall d h).1]

theorem upperChar_of_mem_upperChar {c d : Char} (h : d ∈ upperChar c) : upperChar d = [d] := by
  rcases upperChar_cases c with he | ⟨_, _, hall⟩
  · have hd : d = c := by simpa [he] using h
    rw [hd, he]
  · exact (hall d h).2

theorem upper_of_forall {cs : List Char} (h : ∀ c ∈ cs, upperChar c = [c]) : upper cs = cs := by
  induction cs with
  | nil => rfl
  | cons c cs ih =>
    have := ih fun d hd => h d (List.mem_cons_of_mem c hd)
    simp only [upper] at this
    simp [upper, h c List.mem_cons_self, this]

theorem upper_upper (cs : List Char) : upper (upper cs) = upper cs := by
  apply upper_of_forall
  intro d hd
  obtain ⟨c, _, hc⟩ := List.mem_flatMap.mp hd
  exact upperChar_of_mem_upperChar hc

theorem upper_eq_nil_iff (cs : List Char) : upper cs = [] ↔ cs = [] := by
  simp only [upper, List.flatMap_eq_nil_iff]
  constructor
  · intro h
    cases cs with
    | nil => rfl
    | cons c cs => exact absurd (h c List.mem_cons_self) (upperChar_ne_nil c)
  · rintro rfl c hc
    cases hc

theorem Trimmed.upper {cs : List Char} (h : Trimmed cs) : Trimmed (upper cs) := by
  constructor
  · intro d hd
    cases cs with
    | nil => simp [Text.upper] at hd
    | cons c cs =>
      cases hu : upperChar c with
      | nil => exact absurd hu (upperChar_ne_nil c)
      | cons u us =>
        have hud : u = d := by simpa [Text.upper, hu] using hd
        have hmem : d ∈ upperChar c := by simp [hu, hud]
        rw [isBlank_of_mem_upperChar hmem]
        exact h.1 c (by simp)
  · intro d hd
    rcases List.eq_nil_or_concat cs with rfl | ⟨bs, c, rfl⟩
    · simp [Text.upper] at hd
    · rcases List.eq_nil_or_concat (upperChar c) with hu | ⟨us, u, hu⟩
      · exact absurd hu (upperChar_ne_nil c)
      · have hud : u = d := by simpa [Text.upper, hu] using hd
        have hmem : d ∈ upperChar c := by simp [hu, hud]
        rw [isBlank_of_mem_upperChar hmem]
        exact h.2 c (by simp)

end FriendLedger.Text
