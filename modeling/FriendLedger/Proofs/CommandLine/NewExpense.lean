import FriendLedger.Proofs.CommandLine.Parts
import FriendLedger.Proofs.CommandLine.ShareText
import FriendLedger.Proofs.Currency

/-! A new expense on the command line. Its total and the costs of its shares may be any
amounts. A time before the epoch looks like an option: it is refused as an argument of its
own and accepted after an equals sign. -/

namespace FriendLedger

set_option autoImplicit false

def Amount.toText (a : Amount) : String := String.ofList a.toChars

def Share.toText (s : Share) : String := s.counterparty ++ "=" ++ s.signedCost.toText

namespace CommandLine

/-! ### Amounts as arguments -/

theorem ofText?_toText (a : Amount) : Amount.ofText? a.toText = some a := by
  rw [Amount.ofText?, Amount.toText, String.toList_ofList, Amount.ofChars?_toChars]

theorem nonneg_iff_toInt {a : Amount} : 0 ≤ a ↔ 0 ≤ a.toInt := Int64.le_iff_toInt_le

theorem toDigits_eq_cons (n : Nat) : ∃ c cs, Nat.toDigits 10 n = c :: cs ∧ c.isDigit = true := by
  cases hd : Nat.toDigits 10 n with
  | nil => exact absurd hd Nat.toDigits_ne_nil
  | cons c cs =>
    have hc : c ∈ Nat.toDigits 10 n := by simp [hd]
    exact ⟨c, cs, rfl, Nat.isDigit_of_mem_toDigits (by decide) (by decide) hc⟩

theorem isPlain_toText {a : Amount} (h : 0 ≤ a) : IsPlain a.toText := by
  obtain ⟨c, cs, hdigits, hc⟩ := toDigits_eq_cons a.toInt.natAbs
  have htext : a.toText.toList = c :: cs := by
    rw [Amount.toText, String.toList_ofList, Amount.toChars, Text.writeInt,
      if_neg (Int.not_lt.mpr (nonneg_iff_toInt.mp h)), hdigits]
  refine .inr ?_
  rw [htext]
  rintro _ ⟨⟩ rfl
  cases hc

/-- The sign of an amount below zero is taken for the hyphen of a short option. -/
theorem ofArgument_toText {a : Amount} (h : ¬ 0 ≤ a) :
    ∃ digit, digit ≠ 'h' ∧ Token.ofArgument a.toText = .short digit := by
  obtain ⟨c, cs, hdigits, hc⟩ := toDigits_eq_cons a.toInt.natAbs
  have htext : a.toText.toList = '-' :: c :: cs := by
    rw [Amount.toText, String.toList_ofList, Amount.toChars, Text.writeInt,
      if_pos (Int.not_le.mp (mt nonneg_iff_toInt.mpr h)), hdigits]
  refine ⟨c, ?_, ?_⟩
  · rintro rfl
    cases hc
  · rw [Token.ofArgument, htext]
    split
    · simp_all [Char.isDigit]
    · simp_all [Char.isDigit]
    · simp_all
    · simp_all

/-- Where an option waits, an argument that looks like a short option has no place. -/
theorem parse_awaits_short {shape : Shape} {st : Intake} (htrailing : st.trailing = false)
    {p : Parameter} (hp : p.takesHyphens = false) {value : String} {letter : Char}
    (hvalue : Token.ofArgument value = .short letter) (hletter : letter ≠ 'h') (args : List String) :
    parse shape (st.awaits p) (value :: args) = .error .unknownArgument := by
  rw [parse_cons (.inr (.inl rfl)), take_awaits htrailing, if_neg (by simp [hp]), hvalue]
  simp [Intake.short, hletter]

/-! ### The line -/

/-- What a line says of a new expense, apart from its time. -/
structure Wording where
  actor : String
  details : String
  total : Amount
  code : String
  shares : List Share

namespace Wording

/-- The words do not look like options, and they name a currency and users. -/
structure Sayable (w : Wording) : Prop where
  actor : IsPlain w.actor
  details : IsPlain w.details
  code : IsPlain w.code
  currency : ∃ c ∈ w.code.toList, Text.isBlank c = false
  users : ∀ s ∈ w.shares, Share.Nameable s.counterparty

/-- The line with every option and every value as an argument of its own. The arguments
`time` say when. -/
def line (w : Wording) (time : List String) : List String :=
  "expenses" :: "add" :: (["--actor", w.actor, "--details", w.details, "--total", w.total.toText,
    "--currency", w.code] ++ (time ++ w.shares.flatMap fun s => ["--share", s.toText]))

theorem normalize_code_ne_empty {w : Wording} (h : w.Sayable) : Currency.normalize w.code ≠ "" := by
  rw [ne_eq, Currency.normalize_eq_empty_iff]
  simpa using h.currency

/-- The expense that is meant. -/
def draft (w : Wording) (h : w.Sayable) (time? : Option Amount) : Draft where
  details := w.details
  totalCost := w.total
  currency :=
    ⟨Currency.normalize w.code, normalize_code_ne_empty h, Currency.normalize_normalize w.code⟩
  timestamp := time?
  shares := w.shares

/-- What the line tells before the time. -/
def header (w : Wording) : List (String × String) :=
  [("actor", w.actor), ("details", w.details), ("total", w.total.toText), ("currency", w.code)]

/-- What reading takes from the line. -/
def told (w : Wording) (time? : Option Amount) : Parsed where
  path := ["expenses", "add"]
  values := w.header ++ (time?.map fun a => ("timestamp", a.toText)).toList ++
    w.shares.map fun s => ("share", s.toText)

/-! ### The values mean the expense -/

section Told
variable (w : Wording) (time? : Option Amount)

theorem value?_told {name value : String}
    (h : w.header.find? (·.1 == name) = some (name, value)) :
    (w.told time?).value? name = some value := by
  rw [Parsed.value?, told, List.append_assoc, List.find?_append, h]
  rfl

/-- Beside the header and the shares there is the time. -/
theorem value?_told_of_header {name : String} (h : w.header.find? (·.1 == name) = none)
    (hname : name ≠ "share") :
    (w.told time?).value? name = if name = "timestamp" then time?.map Amount.toText else none := by
  have hshares : (w.shares.map fun s => ("share", s.toText)).find? (·.1 == name) = none := by
    simp [hname.symm]
  rw [Parsed.value?, told, List.append_assoc, List.find?_append, h, Option.none_or,
    List.find?_append, hshares, Option.or_none]
  cases time? with
  | none => simp
  | some time =>
    by_cases htime : name = "timestamp"
    · simp [htime]
    · simp [htime, Ne.symm htime]

theorem shares_told : (w.told time?).allValues "share" = w.shares.map Share.toText := by
  have hshares : (w.shares.map fun s => ("share", s.toText)).filter (·.1 == "share") =
      w.shares.map fun s => ("share", s.toText) := by simp
  cases time? <;> simp [Parsed.allValues, told, header, hshares]

end Told

section Sayable
variable {w : Wording} (h : w.Sayable)
include h

theorem ofText?_code (time? : Option Amount) :
    Currency.ofText? w.code = some (w.draft h time?).currency :=
  dif_neg (normalize_code_ne_empty h)

theorem ofText?_share {s : Share} (hs : s ∈ w.shares) : Share.ofText? s.toText = some s :=
  Share.ofText?_eq_some_iff.mpr (Share.typed_of_nameable (h.users s hs) s.signedCost)

theorem command?_told (time? : Option Amount) :
    command? (w.told time?) = some (.add w.actor (w.draft h time?)) := by
  have hactor : (w.told time?).value? "actor" = some w.actor := w.value?_told time? rfl
  have hdetails : (w.told time?).value? "details" = some w.details := w.value?_told time? rfl
  have htotal : (w.told time?).value? "total" = some w.total.toText := w.value?_told time? rfl
  have hcode : (w.told time?).value? "currency" = some w.code := w.value?_told time? rfl
  have hshares : (w.shares.map Share.toText).mapM Share.ofText? = some w.shares :=
    mapM_map_eq_some fun s hs => ofText?_share h hs
  have htimestamp : (w.told time?).value? "timestamp" = time?.map Amount.toText :=
    w.value?_told_of_header time? rfl (by decide)
  have hdraft : draft? (w.told time?) = some (w.draft h time?) := by
    rw [draft?, hdetails, htotal, hcode, htimestamp, shares_told, hshares]
    cases time? <;> simp [ofText?_toText, ofText?_code h none, draft]
  have hpath : (w.told time?).path = ["expenses", "add"] := rfl
  simp only [command?, hpath, hactor, hdraft]
  rfl

end Sayable

/-! ### Reading the line -/

def timestampOption : Parameter :=
  ⟨"timestamp", false, false, false, fun s => (Amount.ofText? s).isSome⟩

theorem options_shares {shares : List Share}
    (hshares : ∀ s ∈ shares, Share.ofText? s.toText = some s) (given : List (String × String)) :
    Options addOptions given (shares.flatMap fun s => ["--share", s.toText])
      (given ++ shares.map fun s => ("share", s.toText)) := by
  induction shares generalizing given with
  | nil =>
    rw [List.map_nil, List.append_nil]
    exact .nil
  | cons s shares ih =>
    obtain ⟨hs, hrest⟩ := List.forall_mem_cons.mp hshares
    have hall := ih hrest (given ++ [("share", s.toText)])
    rw [List.append_assoc] at hall
    refine .apart ⟨"share", false, true, true, fun s => (Share.ofText? s).isSome⟩ rfl (.inl rfl)
      ⟨.inl rfl, ?_⟩ hall
    simp [hs]

theorem parse_add (args : List String) : parse shape shape.start ("expenses" :: "add" :: args) =
    (parse addShape addShape.start args).map
      fun q => ⟨"expenses" :: "add" :: q.path, q.values⟩ := by
  have hexpenses : parse shape shape.start ("expenses" :: "add" :: args) =
      parse expensesShape expensesShape.start ("add" :: args) >>= fun inner =>
        .ok ⟨"expenses" :: inner.path, inner.values⟩ :=
    parse_command (c := ("expenses", expensesShape)) (Intake.steady_start shape) rfl rfl
  have hadd : parse expensesShape expensesShape.start ("add" :: args) =
      parse addShape addShape.start args >>= fun inner => .ok ⟨"add" :: inner.path, inner.values⟩ :=
    parse_command (c := ("add", addShape)) (Intake.steady_start expensesShape) rfl rfl
  rw [hexpenses, hadd]
  cases parse addShape addShape.start args <;> rfl

section Sayable
variable {w : Wording} (h : w.Sayable)
include h

theorem options_header : Options addOptions [] ["--actor", w.actor, "--details", w.details,
    "--total", w.total.toText, "--currency", w.code] w.header := by
  refine .apart ⟨"actor", true, false, false, anything⟩ rfl (.inr h.actor) ⟨.inr ?_, rfl⟩ ?_
  · simp
  refine .apart ⟨"details", true, false, false, anything⟩ rfl (.inr h.details) ⟨.inr ?_, rfl⟩ ?_
  · simp
  refine .apart ⟨"total", true, false, true, fun s => (Amount.ofText? s).isSome⟩ rfl (.inl rfl)
    ⟨.inr ?_, ?_⟩ ?_
  · simp
  · simp [ofText?_toText]
  refine .apart ⟨"currency", true, false, false, fun s => (Currency.ofText? s).isSome⟩ rfl
    (.inr h.code) ⟨.inr ?_, ?_⟩ .nil
  · simp
  · simp [ofText?_code h none]

theorem read_line {time : List String} {time? : Option Amount}
    (htime : Options addOptions w.header time
      (w.header ++ (time?.map fun a => ("timestamp", a.toText)).toList)) :
    read (w.line time) = .ok ⟨none, .add w.actor (w.draft h time?)⟩ := by
  have hoptions := (options_header h).append
    (htime.append (options_shares (fun _ hs => ofText?_share h hs) _))
  have hargs := Options.parse_eq proper_addShape hoptions (.inl rfl) (by simp [addOptions, header])
  have hparsed : parse shape shape.start (w.line time) = .ok (w.told time?) := by
    rw [line, parse_add, addShape, hargs]
    rfl
  have hdatabase : (w.told time?).value? "database-url" = none :=
    w.value?_told_of_header time? rfl (by decide)
  rw [read, hparsed, ok_bind, command?_told h]
  dsimp only
  rw [hdatabase]
  rfl

theorem read_line_of_spells {time : List String} {a : Amount}
    (htime : Spells addOptions time timestampOption a.toText) :
    read (w.line time) = .ok ⟨none, .add w.actor (w.draft h (some a))⟩ := by
  apply read_line h
  have hfits : timestampOption.Fits w.header a.toText :=
    ⟨.inr (by simp [timestampOption, header]), by simp [timestampOption, ofText?_toText]⟩
  have hoptions := Options.cons htime hfits .nil
  rwa [List.append_nil] at hoptions

/-- A time before the epoch is refused where a new argument is expected. -/
theorem read_line_early {time : Amount} (htime : ¬ 0 ≤ time) :
    read (w.line ["--timestamp", time.toText]) = .error .unknownArgument := by
  obtain ⟨st, hst, -, -, hparse⟩ :=
    Options.parse_append proper_addShape (options_header h) (Intake.ready_start addShape) rfl
  obtain ⟨digit, hdigit, htoken⟩ := ofArgument_toText htime
  have hrefused (args : List String) : parse addShape st ("--timestamp" :: time.toText :: args) =
      .error .unknownArgument := by
    have hoption : Token.ofArgument "--timestamp" = .long timestampOption.name none := rfl
    rw [parse_long proper_addShape hst.steady hst.trailing rfl hoption,
      (Intake.option_none_eq_ok_iff hst.steady).mpr ⟨hst.settles, rfl⟩, ok_bind]
    exact parse_awaits_short hst.trailing rfl htoken hdigit args
  have hargs := hparse
    ("--timestamp" :: time.toText :: w.shares.flatMap fun s => ["--share", s.toText])
  rw [hrefused] at hargs
  rw [read, line, parse_add]
  simp only [List.cons_append, List.nil_append] at hargs ⊢
  rw [hargs]
  rfl

/-- Every total and every cost is read as it is written, whatever its sign, and so is a time
that is not before the epoch. A time before it is refused as an argument of its own; after an
equals sign every time is read. -/
theorem line_read_by_time (time : Amount) :
    read (w.line ["--timestamp", time.toText]) =
      (if 0 ≤ time then .ok ⟨none, .add w.actor (w.draft h (some time))⟩
      else .error .unknownArgument) ∧
    read (w.line ["--timestamp=" ++ time.toText]) =
      .ok ⟨none, .add w.actor (w.draft h (some time))⟩ ∧
    read (w.line []) = .ok ⟨none, .add w.actor (w.draft h none)⟩ := by
  refine ⟨?_, ?_, ?_⟩
  · split
    · rename_i htime
      have happart : Spells addOptions ["--timestamp", time.toText] timestampOption time.toText :=
        .apart (p := timestampOption) rfl (.inr (isPlain_toText htime))
      exact read_line_of_spells h happart
    · rename_i htime
      exact read_line_early h htime
  · have hjoined : Spells addOptions ["--timestamp=" ++ time.toText] timestampOption time.toText :=
      .joined (p := timestampOption) rfl
    exact read_line_of_spells h hjoined
  · apply read_line h
    rw [Option.map_none, Option.toList_none, List.append_nil]
    exact .nil

end Sayable

def rent : Wording where
  actor := "bob"
  details := "rent"
  total := Int64.minValue
  code := "eur "
  shares := [⟨"bob", Int64.minValue⟩, ⟨"ann lee", Int64.maxValue⟩]

theorem sayable_rent : rent.Sayable where
  actor := by decide
  details := by decide
  code := by decide
  currency := ⟨'e', by decide, by decide⟩
  users := by
    simp only [rent, List.forall_mem_cons]
    exact ⟨⟨by decide, by decide, by decide⟩, ⟨by decide, by decide, by decide⟩,
      List.forall_mem_nil _⟩

/-- Amounts at both ends of the range, and a time on either side of the epoch. -/
theorem rent_read_by_time :
    rent.Sayable ∧
      read (rent.line ["--timestamp", "5"]) = .ok ⟨none, .add "bob" (rent.draft sayable_rent (some 5))⟩ ∧
      read (rent.line ["--timestamp", "-5"]) = .error .unknownArgument ∧
      read (rent.line ["--timestamp=-5"]) = .ok ⟨none, .add "bob" (rent.draft sayable_rent (some (-5)))⟩ ∧
      (rent.draft sayable_rent none).currency.code = "EUR" := by
  obtain ⟨hlate, -⟩ := line_read_by_time sayable_rent 5
  obtain ⟨hearly, hjoined, -⟩ := line_read_by_time sayable_rent (-5)
  exact ⟨sayable_rent, hlate, hearly, hjoined, by decide⟩

def lunch : Wording := ⟨"alice", "lunch", 1, "EUR", [⟨"alice", 1⟩]⟩

/-- A lunch one second before the epoch. -/
theorem early_lunch_refused : lunch.Sayable ∧
    lunch.line ["--timestamp", (-1 : Amount).toText] =
      ["expenses", "add", "--actor", "alice", "--details", "lunch", "--total", "1",
        "--currency", "EUR", "--timestamp", "-1", "--share", "alice=1"] ∧
    read (lunch.line ["--timestamp", (-1 : Amount).toText]) = .error .unknownArgument := by
  refine ⟨⟨by decide, by decide, by decide, ⟨'E', by decide, by decide⟩, ?_⟩,
    by decide, by decide +kernel⟩
  simp only [lunch, List.forall_mem_cons]
  exact ⟨⟨by decide, by decide, by decide⟩, List.forall_mem_nil _⟩

end Wording
end CommandLine
end FriendLedger
