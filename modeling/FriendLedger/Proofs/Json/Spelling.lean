import FriendLedger.Json.Printer
import FriendLedger.Proofs.Json.Notation

/-! Spellings of documents that are composed of texts, whole numbers, null and the two
truth values. Any blanks may stand between the parts of a spelling. The reader reads every
spelling as the document that is spelled, and both written forms are spellings. -/

namespace FriendLedger

set_option autoImplicit false

namespace Json

def Blank (bs : List Char) : Prop := ∀ c ∈ bs, isBlank c = true

/-- A document, or what follows an opening bracket or brace up to the closing one. -/
inductive Part
  | value (j : Json)
  | items (xs : List Json)
  | fields (fs : List (List Char × Json))

inductive Spelled : Part → List Char → Prop
  | null : Spelled (.value .null) ['n', 'u', 'l', 'l']
  | bool (b : Bool) : Spelled (.value (.bool b)) (compact (.bool b))
  | int (n : Int) : Spelled (.value (ofInt n)) (Text.writeInt n)
  | text (s : String) : Spelled (.value (ofText s)) (quote (escape s))
  | emptyArray {bs : List Char} (hb : Blank bs) : Spelled (.value (.array [])) ('[' :: bs ++ [']'])
  | array {xs : List Json} {bs cs : List Char} (hb : Blank bs) (h : Spelled (.items xs) cs) :
      Spelled (.value (.array xs)) ('[' :: bs ++ cs)
  | emptyObject {bs : List Char} (hb : Blank bs) :
      Spelled (.value (.object [])) ('\x7b' :: bs ++ ['\x7d'])
  | object {fs : List (List Char × Json)} {bs cs : List Char} (hb : Blank bs)
      (h : Spelled (.fields fs) cs) : Spelled (.value (.object fs)) ('\x7b' :: bs ++ cs)
  | lastItem {x : Json} {cs bs : List Char} (h : Spelled (.value x) cs) (hb : Blank bs) :
      Spelled (.items [x]) (cs ++ bs ++ [']'])
  | item {x : Json} {xs : List Json} {cs bs bs₁ ds : List Char} (h : Spelled (.value x) cs)
      (hb : Blank bs) (hb₁ : Blank bs₁) (hs : Spelled (.items xs) ds) :
      Spelled (.items (x :: xs)) (cs ++ bs ++ ',' :: bs₁ ++ ds)
  | lastField (k : String) {v : Json} {bs bs₁ cs bs₂ : List Char} (hb : Blank bs)
      (hb₁ : Blank bs₁) (h : Spelled (.value v) cs) (hb₂ : Blank bs₂) :
      Spelled (.fields [(escape k, v)])
        (quote (escape k) ++ bs ++ ':' :: bs₁ ++ cs ++ bs₂ ++ ['\x7d'])
  | field (k : String) {v : Json} {fs : List (List Char × Json)}
      {bs bs₁ cs bs₂ bs₃ ds : List Char} (hb : Blank bs) (hb₁ : Blank bs₁)
      (h : Spelled (.value v) cs) (hb₂ : Blank bs₂) (hb₃ : Blank bs₃)
      (hs : Spelled (.fields fs) ds) :
      Spelled (.fields ((escape k, v) :: fs))
        (quote (escape k) ++ bs ++ ':' :: bs₁ ++ cs ++ bs₂ ++ ',' :: bs₃ ++ ds)

/-! ### Reading -/

section Blanks
variable {c : Char} {bs r : List Char}

theorem skipBlanks_append (hb : Blank bs) (hc : isBlank c = false) :
    skipBlanks (bs ++ c :: r) = c :: r := by
  rw [skipBlanks, List.dropWhile_append_of_pos hb, List.dropWhile_cons_of_neg (by simp [hc])]

theorem ends_cons (hc : c.isDigit = false ∧ c ≠ '.' ∧ c ≠ 'e' ∧ c ≠ 'E') : Ends (c :: r) := by
  intro d hd
  cases hd
  exact hc

/-- Numbers end at blanks, too. -/
theorem Ends.append (hr : Ends r) (hb : Blank bs) : Ends (bs ++ r) := by
  cases bs with
  | nil => exact hr
  | cons c bs =>
    have hc := hb c List.mem_cons_self
    simp only [isBlank, Bool.or_eq_true, decide_eq_true_eq] at hc
    apply ends_cons
    rcases hc with ((rfl | rfl) | rfl) | rfl <;> decide

end Blanks

/-- The first character of a spelling tells it from blanks and from the end of a list. -/
structure Opens (c : Char) : Prop where
  not_blank : isBlank c = false
  not_bracket : c ≠ ']'
  not_brace : c ≠ '\x7d'

theorem opens_writeInt (n : Int) : ∃ c r, Text.writeInt n = c :: r ∧ Opens c ∧
    (c = '-' ∨ c.isDigit = true) := by
  unfold Text.writeInt
  split
  · exact ⟨_, _, rfl, ⟨rfl, by decide, by decide⟩, .inl rfl⟩
  · cases hds : Nat.toDigits 10 n.natAbs with
    | nil => exact absurd hds Nat.toDigits_ne_nil
    | cons c r =>
      have hc : c.isDigit = true := isDigit_of_mem_toDigits (n := n.natAbs) (by simp [hds])
      have hne (d : Char) (hd : d.isDigit = false) : c ≠ d := by
        rintro rfl
        cases hc.symm.trans hd
      refine ⟨c, r, rfl, ⟨?_, hne _ rfl, hne _ rfl⟩, .inr hc⟩
      simp [isBlank, hne ' ' rfl, hne '\n' rfl, hne '\t' rfl, hne '\r' rfl]

theorem Spelled.opens {p : Part} {cs : List Char} (h : Spelled p cs) :
    ∃ c r, cs = c :: r ∧ Opens c := by
  have hplain (c : Char) (r : List Char) (hb : isBlank c = false) (hne : c ≠ ']' ∧ c ≠ '\x7d') :
      ∃ c' r', c :: r = c' :: r' ∧ Opens c' := ⟨c, r, rfl, hb, hne.1, hne.2⟩
  induction h with
  | int n =>
    obtain ⟨c, r, hcs, hc, -⟩ := opens_writeInt n
    exact ⟨c, r, hcs, hc⟩
  | lastItem h hb ih =>
    obtain ⟨c, r, rfl, hc⟩ := ih
    exact ⟨c, _, rfl, hc⟩
  | item h hb hb₁ hs ih =>
    obtain ⟨c, r, rfl, hc⟩ := ih
    exact ⟨c, _, rfl, hc⟩
  | bool b => cases b <;> exact hplain _ _ rfl (by decide)
  | _ => exact hplain _ _ rfl (by decide)

theorem scanValue_numeral {c : Char} (hc : c = '-' ∨ c.isDigit = true) (fuel : Nat)
    (r : List Char) :
    scanValue (fuel + 1) (c :: r) = (scanNumber (c :: r)).map fun p => (.number p.1, p.2) := by
  have hne (d : Char) (hd : d.isDigit = false) (hminus : d ≠ '-') : c ≠ d := by
    rintro rfl
    rcases hc with hc | hc
    · exact hminus hc
    · cases hc.symm.trans hd
  rw [scanValue]
  -- no other kind of document begins with a sign or a digit
  all_goals
    intro r' heq
    exact absurd (List.cons.inj heq).1 (hne _ rfl (by decide))

/-- What the reader makes of a part, and what it leaves. -/
def Part.ScannedAs : Part → Nat → List Char → List Char → Prop
  | .value j, fuel, cs, r => scanValue fuel cs = some (j, r)
  | .items xs, fuel, cs, r => scanItems fuel cs = some (xs, r)
  | .fields fs, fuel, cs, r => scanFields fuel cs = some (fs, r)

section Steps
variable {fuel : Nat} {x : Json} {cs r : List Char}

theorem scanValue_quote (s : String) :
    scanValue (fuel + 1) (quote (escape s) ++ r) = some (ofText s, r) := by
  simp only [quote, List.cons_append, List.append_assoc, List.nil_append, scanValue,
    scanText_escape]
  rfl

theorem scanValue_brackets {bs : List Char} (hb : Blank bs) :
    scanValue (fuel + 1) ('[' :: (bs ++ ']' :: r)) = some (.array [], r) := by
  have hskip : skipBlanks (bs ++ ']' :: r) = ']' :: r := skipBlanks_append hb rfl
  simp only [scanValue, hskip]

theorem scanValue_braces {bs : List Char} (hb : Blank bs) :
    scanValue (fuel + 1) ('\x7b' :: (bs ++ '\x7d' :: r)) = some (.object [], r) := by
  have hskip : skipBlanks (bs ++ '\x7d' :: r) = '\x7d' :: r := skipBlanks_append hb rfl
  simp only [scanValue, hskip]

theorem scanValue_bracket {c : Char} {bs : List Char} (hb : Blank bs) (hc : Opens c) :
    scanValue (fuel + 1) ('[' :: (bs ++ c :: r)) =
      (scanItems fuel (c :: r)).map fun p => (.array p.1, p.2) := by
  simp only [scanValue, skipBlanks_append hb hc.not_blank]
  split
  · rename_i heq
    exact absurd (List.cons.inj heq).1 hc.not_bracket
  · rfl

theorem scanValue_brace {c : Char} {bs : List Char} (hb : Blank bs) (hc : Opens c) :
    scanValue (fuel + 1) ('\x7b' :: (bs ++ c :: r)) =
      (scanFields fuel (c :: r)).map fun p => (.object p.1, p.2) := by
  simp only [scanValue, skipBlanks_append hb hc.not_blank]
  split
  · rename_i heq
    exact absurd (List.cons.inj heq).1 hc.not_brace
  · rfl

theorem scanItems_last {bs : List Char} (hb : Blank bs)
    (h : scanValue fuel cs = some (x, bs ++ ']' :: r)) :
    scanItems (fuel + 1) cs = some ([x], r) := by
  have hskip : skipBlanks (bs ++ ']' :: r) = ']' :: r := skipBlanks_append hb rfl
  simp only [scanItems, h, Option.bind_eq_bind, Option.bind_some, hskip]

theorem scanItems_next {c : Char} {bs bs₁ : List Char} (hb : Blank bs) (hb₁ : Blank bs₁)
    (hc : Opens c) (h : scanValue fuel cs = some (x, bs ++ ',' :: (bs₁ ++ c :: r))) :
    scanItems (fuel + 1) cs = (scanItems fuel (c :: r)).map fun p => (x :: p.1, p.2) := by
  have hskip : skipBlanks (bs ++ ',' :: (bs₁ ++ c :: r)) = ',' :: (bs₁ ++ c :: r) :=
    skipBlanks_append hb rfl
  simp only [scanItems, h, Option.bind_eq_bind, Option.bind_some, hskip,
    skipBlanks_append hb₁ hc.not_blank]

theorem scanFields_last (k : String) {c : Char} {bs bs₁ bs₂ : List Char} (hb : Blank bs)
    (hb₁ : Blank bs₁) (hc : Opens c) (hb₂ : Blank bs₂)
    (h : scanValue fuel (c :: cs) = some (x, bs₂ ++ '\x7d' :: r)) :
    scanFields (fuel + 1) (quote (escape k) ++ (bs ++ ':' :: (bs₁ ++ c :: cs))) =
      some ([(escape k, x)], r) := by
  have hcolon : skipBlanks (bs ++ ':' :: (bs₁ ++ c :: cs)) = ':' :: (bs₁ ++ c :: cs) :=
    skipBlanks_append hb rfl
  have hbrace : skipBlanks (bs₂ ++ '\x7d' :: r) = '\x7d' :: r := skipBlanks_append hb₂ rfl
  simp only [quote, List.cons_append, List.append_assoc, List.nil_append, scanFields,
    scanText_escape, Option.bind_eq_bind, Option.bind_some, hcolon,
    skipBlanks_append hb₁ hc.not_blank, h, hbrace]

theorem scanFields_next (k : String) {c d : Char} {bs bs₁ bs₂ bs₃ : List Char} (hb : Blank bs)
    (hb₁ : Blank bs₁) (hc : Opens c) (hb₂ : Blank bs₂) (hb₃ : Blank bs₃) (hd : Opens d)
    (h : scanValue fuel (c :: cs) = some (x, bs₂ ++ ',' :: (bs₃ ++ d :: r))) :
    scanFields (fuel + 1) (quote (escape k) ++ (bs ++ ':' :: (bs₁ ++ c :: cs))) =
      (scanFields fuel (d :: r)).map fun p => ((escape k, x) :: p.1, p.2) := by
  have hcolon : skipBlanks (bs ++ ':' :: (bs₁ ++ c :: cs)) = ':' :: (bs₁ ++ c :: cs) :=
    skipBlanks_append hb rfl
  have hcomma : skipBlanks (bs₂ ++ ',' :: (bs₃ ++ d :: r)) = ',' :: (bs₃ ++ d :: r) :=
    skipBlanks_append hb₂ rfl
  simp only [quote, List.cons_append, List.append_assoc, List.nil_append, scanFields,
    scanText_escape, Option.bind_eq_bind, Option.bind_some, hcolon,
    skipBlanks_append hb₁ hc.not_blank, h, hcomma, skipBlanks_append hb₃ hd.not_blank]

end Steps

theorem exists_fuel {n fuel : Nat} (h : n + 1 ≤ fuel) : ∃ k, fuel = k + 1 ∧ n ≤ k :=
  ⟨fuel - 1, by omega, by omega⟩

/-- A spelling is read as what it spells, up to its end, with as much fuel as it is long. -/
theorem Spelled.scanned {p : Part} {cs : List Char} (h : Spelled p cs) {fuel : Nat} {r : List Char}
    (hfuel : cs.length ≤ fuel) (hr : Ends r) : p.ScannedAs fuel (cs ++ r) r := by
  -- Every rule adds a character of its own to its parts, which pays for the step into them.
  -- A number inside ends where a blank, a comma or a closing character follows.
  induction h generalizing fuel r with
  | null =>
    obtain ⟨fuel, rfl, -⟩ := exists_fuel hfuel
    rfl
  | bool b =>
    cases b <;> obtain ⟨fuel, rfl, -⟩ := exists_fuel hfuel <;> rfl
  | int n =>
    obtain ⟨c, r', hcs, -, hc⟩ := opens_writeInt n
    have hscan := hr.scanNumber n
    rw [hcs] at hfuel hscan ⊢
    obtain ⟨fuel, rfl, -⟩ := exists_fuel hfuel
    simp only [Part.ScannedAs, List.cons_append] at hscan ⊢
    rw [scanValue_numeral hc, hscan, ofInt, hcs]
    rfl
  | text s =>
    obtain ⟨fuel, rfl, -⟩ := exists_fuel hfuel
    exact scanValue_quote s
  | emptyArray hb =>
    obtain ⟨fuel, rfl, -⟩ := exists_fuel hfuel
    simp only [Part.ScannedAs, List.cons_append, List.append_assoc]
    exact scanValue_brackets hb
  | @array xs bs cs hb h ih =>
    obtain ⟨fuel, rfl, hle⟩ := exists_fuel hfuel
    have hitems : scanItems fuel (cs ++ r) = some (xs, r) := ih (by simp at hle; omega) hr
    obtain ⟨c, cs, rfl, hc⟩ := h.opens
    simp only [Part.ScannedAs, List.cons_append, List.append_assoc] at hitems ⊢
    rw [scanValue_bracket hb hc, hitems]
    rfl
  | emptyObject hb =>
    obtain ⟨fuel, rfl, -⟩ := exists_fuel hfuel
    simp only [Part.ScannedAs, List.cons_append, List.append_assoc]
    exact scanValue_braces hb
  | @object fs bs cs hb h ih =>
    obtain ⟨fuel, rfl, hle⟩ := exists_fuel hfuel
    have hfields : scanFields fuel (cs ++ r) = some (fs, r) := ih (by simp at hle; omega) hr
    obtain ⟨c, cs, rfl, hc⟩ := h.opens
    simp only [Part.ScannedAs, List.cons_append, List.append_assoc] at hfields ⊢
    rw [scanValue_brace hb hc, hfields]
    rfl
  | lastItem h hb ih =>
    obtain ⟨c, cs, rfl, -⟩ := h.opens
    obtain ⟨fuel, rfl, hle⟩ := exists_fuel hfuel
    simp only [Part.ScannedAs, List.append_assoc]
    apply scanItems_last hb
    exact ih (by simp at hle ⊢; omega) ((ends_cons (by decide)).append hb)
  | @item x xs cs bs bs₁ ds h hb hb₁ hs ih ihs =>
    obtain ⟨c, cs, rfl, -⟩ := h.opens
    obtain ⟨fuel, rfl, hle⟩ := exists_fuel hfuel
    have hitems : scanItems fuel (ds ++ r) = some (xs, r) := ihs (by simp at hle; omega) hr
    obtain ⟨d, ds, rfl, hd⟩ := hs.opens
    simp only [Part.ScannedAs, List.cons_append, List.append_assoc] at hitems ⊢
    rw [scanItems_next hb hb₁ hd, hitems]
    · rfl
    · exact ih (by simp at hle ⊢; omega) ((ends_cons (by decide)).append hb)
  | lastField k hb hb₁ h hb₂ ih =>
    obtain ⟨c, cs, rfl, hc⟩ := h.opens
    obtain ⟨fuel, rfl, hle⟩ := exists_fuel hfuel
    simp only [Part.ScannedAs, List.cons_append, List.append_assoc]
    apply scanFields_last k hb hb₁ hc hb₂
    exact ih (by simp at hle ⊢; omega) ((ends_cons (by decide)).append hb₂)
  | @field k v fs bs bs₁ cs bs₂ bs₃ ds hb hb₁ h hb₂ hb₃ hs ih ihs =>
    obtain ⟨c, cs, rfl, hc⟩ := h.opens
    obtain ⟨fuel, rfl, hle⟩ := exists_fuel hfuel
    have hfields : scanFields fuel (ds ++ r) = some (fs, r) := ihs (by simp at hle; omega) hr
    obtain ⟨d, ds, rfl, hd⟩ := hs.opens
    simp only [Part.ScannedAs, List.cons_append, List.append_assoc] at hfields ⊢
    rw [scanFields_next k hb hb₁ hc hb₂ hb₃ hd, hfields]
    · rfl
    · exact ih (by simp at hle ⊢; omega) ((ends_cons (by decide)).append hb₂)

/-- Blanks around a document are passed over. -/
theorem Spelled.ofChars?_eq {j : Json} {bs cs bs₁ : List Char} (h : Spelled (.value j) cs)
    (hb : Blank bs) (hb₁ : Blank bs₁) : ofChars? (bs ++ (cs ++ bs₁)) = some j := by
  have hends : Ends bs₁ := by
    have hnil : Ends [] := fun c hc => by cases hc
    have := hnil.append hb₁
    rwa [List.append_nil] at this
  have hrest : skipBlanks bs₁ = [] := List.dropWhile_eq_nil_iff.mpr hb₁
  have hscan : scanValue ((bs ++ (cs ++ bs₁)).length + 1) (cs ++ bs₁) = some (j, bs₁) :=
    h.scanned (by simp; omega) hends
  obtain ⟨c, r, rfl, hc⟩ := h.opens
  have hskip : skipBlanks (bs ++ (c :: r ++ bs₁)) = c :: r ++ bs₁ :=
    skipBlanks_append hb hc.not_blank
  simp only [ofChars?, hskip, hscan, hrest, if_true]

/-! ### Written forms -/

/-- The documents whose texts and numbers are written in the one way. -/
inductive Composed : Json → Prop
  | null : Composed .null
  | bool (b : Bool) : Composed (.bool b)
  | int (n : Int) : Composed (ofInt n)
  | text (s : String) : Composed (ofText s)
  | array {xs : List Json} (h : ∀ x ∈ xs, Composed x) : Composed (.array xs)
  | fields {fs : List (String × Json)} (h : ∀ f ∈ fs, Composed f.2) : Composed (ofFields fs)

theorem blank_nil : Blank [] := List.forall_mem_nil _

theorem blank_newline (level : Nat) : Blank (newline level) := by
  intro c hc
  rcases List.mem_cons.mp hc with rfl | hc
  · rfl
  · rw [List.eq_of_mem_replicate hc]
    rfl

theorem blank_space : Blank [' '] := by
  intro c hc
  rw [List.mem_singleton.mp hc]
  rfl

theorem spelled_compactItems {x : Json} {xs : List Json}
    (h : ∀ y ∈ x :: xs, Spelled (.value y) y.compact) :
    Spelled (.items (x :: xs)) (x.compact ++ compactItems xs) := by
  induction xs generalizing x with
  | nil =>
    have hlast := Spelled.lastItem (h x List.mem_cons_self) blank_nil
    rwa [List.append_nil] at hlast
  | cons y ys ih =>
    obtain ⟨hx, hys⟩ := List.forall_mem_cons.mp h
    have hitem := Spelled.item hx blank_nil blank_nil (ih hys)
    rw [List.append_nil, List.append_assoc] at hitem
    exact hitem

theorem spelled_compactFields {f : String × Json} {fs : List (String × Json)}
    (h : ∀ g ∈ f :: fs, Spelled (.value g.2) g.2.compact) :
    Spelled (.fields ((f :: fs).map fun g => (escape g.1, g.2)))
      (quote (escape f.1) ++ ':' :: f.2.compact ++
        compactFields (fs.map fun g => (escape g.1, g.2))) := by
  induction fs generalizing f with
  | nil =>
    have hlast := Spelled.lastField f.1 blank_nil blank_nil (h f List.mem_cons_self) blank_nil
    simpa [compactFields] using hlast
  | cons g gs ih =>
    obtain ⟨hf, hgs⟩ := List.forall_mem_cons.mp h
    have hfield := Spelled.field f.1 blank_nil blank_nil hf blank_nil blank_nil (ih hgs)
    simpa [compactFields] using hfield

theorem spelled_indentedItems {level : Nat} {x : Json} {xs : List Json}
    (h : ∀ y ∈ x :: xs, Spelled (.value y) (y.indented (level + 1))) :
    Spelled (.items (x :: xs)) (x.indented (level + 1) ++ indentedItems level xs) := by
  induction xs generalizing x with
  | nil =>
    have hlast := Spelled.lastItem (h x List.mem_cons_self) (blank_newline level)
    rwa [List.append_assoc] at hlast
  | cons y ys ih =>
    obtain ⟨hx, hys⟩ := List.forall_mem_cons.mp h
    have hitem := Spelled.item hx blank_nil (blank_newline (level + 1)) (ih hys)
    simpa [indentedItems] using hitem

theorem spelled_indentedFields {level : Nat} {f : String × Json} {fs : List (String × Json)}
    (h : ∀ g ∈ f :: fs, Spelled (.value g.2) (g.2.indented (level + 1))) :
    Spelled (.fields ((f :: fs).map fun g => (escape g.1, g.2)))
      (quote (escape f.1) ++ ':' :: ' ' :: f.2.indented (level + 1) ++
        indentedFields level (fs.map fun g => (escape g.1, g.2))) := by
  induction fs generalizing f with
  | nil =>
    have hlast := Spelled.lastField f.1 blank_nil blank_space (h f List.mem_cons_self)
      (blank_newline level)
    simpa [indentedFields] using hlast
  | cons g gs ih =>
    obtain ⟨hf, hgs⟩ := List.forall_mem_cons.mp h
    have hfield := Spelled.field f.1 blank_nil blank_space hf blank_nil
      (blank_newline (level + 1)) (ih hgs)
    simpa [indentedFields] using hfield

namespace Composed
variable {j : Json} (h : Composed j)
include h

theorem spelled_compact : Spelled (.value j) j.compact := by
  induction h with
  | null => exact .null
  | bool b => exact .bool b
  | int n => exact .int n
  | text s => exact .text s
  | @array xs _ ih =>
    cases xs with
    | nil => exact .emptyArray blank_nil
    | cons x xs => simpa [compact] using Spelled.array blank_nil (spelled_compactItems ih)
  | @fields fs _ ih =>
    cases fs with
    | nil => exact .emptyObject blank_nil
    | cons f fs =>
      simpa [compact, ofFields] using Spelled.object blank_nil (spelled_compactFields ih)

theorem spelled_indented (level : Nat) : Spelled (.value j) (j.indented level) := by
  induction h generalizing level with
  | null => exact .null
  | bool b => cases b <;> exact .bool _
  | int n => exact .int n
  | text s => exact .text s
  | @array xs _ ih =>
    cases xs with
    | nil => exact .emptyArray blank_nil
    | cons x xs =>
      have hitems := spelled_indentedItems fun y hy => ih y hy (level + 1)
      simpa [indented] using Spelled.array (blank_newline (level + 1)) hitems
  | @fields fs _ ih =>
    cases fs with
    | nil => exact .emptyObject blank_nil
    | cons f fs =>
      have hfields := spelled_indentedFields fun g hg => ih g hg (level + 1)
      simpa [indented, ofFields] using Spelled.object (blank_newline (level + 1)) hfields

/-- Both written forms are read as the document. -/
theorem read?_line : read? j.line = some j := by
  have hread := h.spelled_compact.ofChars?_eq blank_nil blank_nil
  rw [List.append_nil, List.nil_append] at hread
  rwa [read?, line, String.toList_ofList]

theorem read?_page : read? j.page = some j := by
  have hread := (h.spelled_indented 0).ofChars?_eq blank_nil blank_nil
  rw [List.append_nil, List.nil_append] at hread
  rwa [read?, page, String.toList_ofList]

end Composed
end Json
end FriendLedger
