import FriendLedger.Proofs.CommandLine.Parts
import FriendLedger.Session

/-! Which call of a controller a line of arguments asks for, told by its words. Reading a
line comes to the command that makes this call. -/

namespace FriendLedger

set_option autoImplicit false

/-- The call that a command makes. Calls that only ask have no use for a journal. -/
def Command.call (c : Command) (now : Amount) : Option String → Session.Step :=
  match c with
  | .request r => .request r
  | .list user => fun _ => .views user
  | .status subject candidates => fun _ => .statuses subject candidates
  | .add actor draft => .addExpense actor (draft.expense now)
  | .remove actor id => .removeExpense actor id
  | .expense actor id => fun _ => .getExpense actor id
  | .between actor other => fun _ => .between actor other
  | .balance actor => fun _ => .balance actor

namespace CommandLine

/-- In front of the first command there may be a database. -/
inductive Front : List String → Prop
  | none : Front []
  | apart {url : String} (h : IsPlain url) : Front ["--database-url", url]
  | joined {url : String} : Front ["--database-url=" ++ url]

/-- The call that two words ask for with what is given by position. -/
def named? (group word : String) (given : List String) : Option (Option String → Session.Step) :=
  match group, word, given with
  | "friends", "send", [sender, target] => some (.request (.send sender target))
  | "friends", "accept", [requester, accepter] => some (.request (.accept requester accepter))
  | "friends", "reject", [sender, target] => some (.request (.reject sender target))
  | "friends", "unfriend", [user, friend] => some (.request (.unfriend user friend))
  | "friends", "list", [user] => some fun _ => .views user
  | "friends", "status", subject :: candidates => some fun _ => .statuses subject candidates
  | "expenses", "remove", [actor, id] => (Id.ofText? id).map fun id => .removeExpense actor id
  | "expenses", "show", [actor, id] => (Id.ofText? id).map fun id _ => .getExpense actor id
  | "expenses", "between", [actor, other] => some fun _ => .between actor other
  | "expenses", "balance", [actor] => some fun _ => .balance actor
  | _, _, _ => none

/-- The values of the options of a new expense tell who adds it and what it is. -/
structure Tells (values : List (String × String)) (actor : String) (d : Draft) : Prop where
  actor : values.lookup "actor" = some actor
  details : values.lookup "details" = some d.details
  total : (values.lookup "total").bind Amount.ofText? = some d.totalCost
  currency : (values.lookup "currency").bind Currency.ofText? = some d.currency
  timestamp : (values.lookup "timestamp").map Amount.ofText? = d.timestamp.map some
  shares : ((values.filter (·.1 == "share")).map (·.2)).mapM Share.ofText? = some d.shares

/-- The line of arguments asks for the call, whose journal is left open. Arguments by position
are the values themselves, with a mark `--` among them if options have to end. -/
inductive Asks (now : Amount) : List String → (Option String → Session.Step) → Prop
  | named {front args : List String} {group word : String} {call : Option String → Session.Step}
      (hfront : Front front) (h : named? group word (args.erase "--") = some call) :
      Asks now (front ++ group :: word :: args) call
  | add {front args options : List String} {values : List (String × String)} {actor : String}
      {d : Draft} (hfront : Front front) (hargs : args = options ∨ args = options ++ ["--"])
      (h : Options addOptions [] options values) (htells : Tells values actor d) :
      Asks now (front ++ "expenses" :: "add" :: args) (.addExpense actor (d.expense now))

/-! ### What is taken from the values -/

section Values
variable {front values : List (String × String)} {path : List String} {name : String}

theorem value?_eq_lookup : (Parsed.mk path values).value? name = values.lookup name := by
  induction values with
  | nil => rfl
  | cons x values ih =>
    obtain ⟨key, value⟩ := x
    rw [Parsed.value?] at ih ⊢
    by_cases hkey : key = name
    · simp [hkey]
    · have hkey' : (name == key) = false := by simpa using Ne.symm hkey
      simpa [hkey, List.lookup_cons, hkey'] using ih

/-- A time that is given has to be read; one that is not given is left open. -/
theorem bind_timestamp_eq_some_iff {α : Type} {text? : Option String}
    {next : Option Amount → Option α} {a : α} :
    (match text? with
      | some text => ((Amount.ofText? text).map some).bind next
      | none => (some none).bind next) = some a ↔
      ∃ time?, text?.map Amount.ofText? = time?.map some ∧ next time? = some a := by
  cases text? with
  | none => simp
  | some text =>
    cases htext : Amount.ofText? text with
    | none => simp [htext]
    | some time => simp [htext]

theorem tells_of_draft? {actor : String} {d : Draft}
    (hactor : (Parsed.mk path values).value? "actor" = some actor)
    (hdraft : draft? ⟨path, values⟩ = some d) : Tells values actor d := by
  rw [draft?] at hdraft
  simp only [value?_eq_lookup] at hactor hdraft
  simp only [Option.bind_eq_bind, Option.bind_eq_some_iff, Option.pure_def] at hdraft
  obtain ⟨details, hdetails, totalText, htotalText, total, htotal, code, hcode, currency, hcurrency,
    hrest⟩ := hdraft
  obtain ⟨time?, htime, hend⟩ := bind_timestamp_eq_some_iff.mp hrest
  obtain ⟨shares, hshares, hd⟩ := Option.bind_eq_some_iff.mp hend
  cases hd
  refine ⟨hactor, hdetails, ?_, ?_, htime, hshares⟩
  · rw [htotalText, Option.bind_some, htotal]
  · rw [hcode, Option.bind_some, hcurrency]

variable (hfront : ∀ x ∈ front, x.1 = "database-url")
include hfront

/-- The database has no part in the command. -/
theorem value?_append (hname : name ≠ "database-url") :
    (Parsed.mk path (front ++ values)).value? name = (Parsed.mk path values).value? name := by
  have hnone : front.find? (·.1 == name) = none := by
    rw [List.find?_eq_none]
    intro x hx
    rw [hfront x hx]
    simpa using hname.symm
  rw [Parsed.value?, Parsed.value?, List.find?_append, hnone, Option.none_or]

theorem allValues_append (hname : name ≠ "database-url") :
    (Parsed.mk path (front ++ values)).allValues name = (Parsed.mk path values).allValues name := by
  have hnil : front.filter (·.1 == name) = [] := by
    rw [List.filter_eq_nil_iff]
    intro x hx
    rw [hfront x hx]
    simpa using hname.symm
  rw [Parsed.allValues, Parsed.allValues, List.filter_append, hnil, List.nil_append]

theorem command?_append : command? ⟨path, front ++ values⟩ = command? ⟨path, values⟩ := by
  have hdraft : draft? ⟨path, front ++ values⟩ = draft? ⟨path, values⟩ := by
    simp only [draft?, value?_append hfront, allValues_append hfront, ne_eq, String.reduceEq,
      not_false_eq_true]
  simp only [command?, hdraft, value?_append hfront, allValues_append hfront, ne_eq,
    String.reduceEq, not_false_eq_true]

end Values

/-! ### Lines and their commands -/

section Lines
variable {now : Amount} {front args : List String} {values : List (String × String)} {c : Command}

theorem front_of_options {options : List String}
    (h : Options shape.options [] options values) :
    Front options ∧ ∀ x ∈ values, x.1 = "database-url" := by
  have hnames : ∀ x ∈ values, x.1 = "database-url" := by
    intro x hx
    simpa [shape, Shape.options] using h.name_mem hx
  refine ⟨?_, hnames⟩
  cases h with
  | nil => exact .none
  | @cons _ _ front args p value hp hfits h =>
    have hmem := hp.mem
    rw [shape, Shape.options, List.mem_singleton] at hmem
    subst hmem
    cases h with
    | nil =>
      rw [List.append_nil]
      cases hp with
      | apart _ hvalue => exact .apart (hvalue.resolve_left nofun)
      | joined => exact .joined
    | cons hp' hfits' =>
      -- the database would be named twice
      have hmem' := hp'.mem
      rw [shape, Shape.options, List.mem_singleton] at hmem'
      subst hmem'
      rcases hfits'.1 with hrepeats | hfree
      · cases hrepeats
      · simp at hfree

theorem command?_status (subject : String) (candidates : List String) :
    command? ⟨["friends", "status"],
      [] ++ ("subject", subject) :: candidates.map fun candidate => ("candidates", candidate)⟩ =
      some (.status subject candidates) := by
  have hcandidates : (candidates.map fun candidate => ("candidates", candidate)).filter
      (·.1 == "candidates") = candidates.map fun candidate => ("candidates", candidate) := by simp
  simp [command?, Parsed.value?, Parsed.allValues, hcandidates]

theorem asks_of_friends (hfront : Front front) {word : String × Shape} {q : Parsed}
    (hword : friendsShape.commands.find? (·.1 == word.1) = some word)
    (hline : Line word.2 false [] word.2.positionals args q)
    (hcommand : command? ⟨"friends" :: word.1 :: q.path, q.values⟩ = some c) :
    Asks now (front ++ "friends" :: word.1 :: args) (c.call now) := by
  have hmem := List.mem_of_find?_eq_some hword
  simp only [friendsShape, Shape.commands, List.mem_cons, List.not_mem_nil, or_false] at hmem
  rcases hmem with rfl | rfl | rfl | rfl | rfl | rfl
  · obtain ⟨sender, target, hargs, rfl⟩ := Line.of_two (by decide) hline
    cases hcommand
    exact .named hfront (by rw [hargs]; rfl)
  · obtain ⟨requester, accepter, hargs, rfl⟩ := Line.of_two (by decide) hline
    cases hcommand
    exact .named hfront (by rw [hargs]; rfl)
  · obtain ⟨sender, target, hargs, rfl⟩ := Line.of_two (by decide) hline
    cases hcommand
    exact .named hfront (by rw [hargs]; rfl)
  · obtain ⟨user, friend, hargs, rfl⟩ := Line.of_two (by decide) hline
    cases hcommand
    exact .named hfront (by rw [hargs]; rfl)
  · obtain ⟨user, hargs, rfl⟩ := Line.of_one hline
    cases hcommand
    exact .named hfront (by rw [hargs]; rfl)
  · obtain ⟨values, rfl, hfills, hgiven⟩ := hline.of_positionals
    obtain ⟨subject, candidates, values', hargs, rfl, hrest⟩ :=
      Line.Fills.first rfl (hgiven _ List.mem_cons_self rfl) hfills
    obtain rfl := hrest.repeating rfl
    cases hcommand.symm.trans (command?_status subject candidates)
    rw [if_neg Bool.false_ne_true] at hargs
    exact .named hfront (by rw [hargs]; rfl)

theorem asks_of_expenses (hfront : Front front) {word : String × Shape} {q : Parsed}
    (hword : expensesShape.commands.find? (·.1 == word.1) = some word)
    (hline : Line word.2 false [] word.2.positionals args q)
    (hcommand : command? ⟨"expenses" :: word.1 :: q.path, q.values⟩ = some c) :
    Asks now (front ++ "expenses" :: word.1 :: args) (c.call now) := by
  have hmem := List.mem_of_find?_eq_some hword
  simp only [expensesShape, Shape.commands, List.mem_cons, List.not_mem_nil, or_false] at hmem
  rcases hmem with rfl | rfl | rfl | rfl | rfl
  · obtain ⟨options, values, hargs, hoptions, rfl, -⟩ := hline.of_options
    obtain ⟨actor, hactor, hadd⟩ := Option.bind_eq_some_iff.mp hcommand
    obtain ⟨d, hdraft, hc⟩ := Option.bind_eq_some_iff.mp hadd
    cases hc
    exact .add hfront hargs hoptions (tells_of_draft? hactor hdraft)
  · obtain ⟨actor, text, hargs, rfl⟩ := Line.of_two (by decide) hline
    obtain ⟨id, hid, hc⟩ := Option.bind_eq_some_iff.mp hcommand
    cases hc
    exact .named hfront (by rw [hargs, named?, hid]; rfl)
  · obtain ⟨actor, text, hargs, rfl⟩ := Line.of_two (by decide) hline
    obtain ⟨id, hid, hc⟩ := Option.bind_eq_some_iff.mp hcommand
    cases hc
    exact .named hfront (by rw [hargs, named?, hid]; rfl)
  · obtain ⟨actor, other, hargs, rfl⟩ := Line.of_two (by decide) hline
    cases hcommand
    exact .named hfront (by rw [hargs]; rfl)
  · obtain ⟨actor, hargs, rfl⟩ := Line.of_one hline
    cases hcommand
    exact .named hfront (by rw [hargs]; rfl)

/-- An accepted line asks for the call that its command makes. -/
theorem asks_of_read {inv : Invocation} (h : read args = .ok inv) :
    Asks now args (inv.command.call now) := by
  obtain ⟨p, hparse, hcommand⟩ := bind_eq_ok_iff.mp h
  have hline := (parse_start_eq_ok_iff proper_shape).mp hparse
  obtain ⟨front, values, word, rest, q, rfl, hoptions, hword, hinner, rfl⟩ := hline.of_group
  obtain ⟨hfront, hvalues⟩ := front_of_options hoptions
  rw [command?_append hvalues] at hcommand
  split at hcommand
  · rename_i c hc
    cases hcommand
    have hmem := List.mem_of_find?_eq_some hword
    simp only [List.mem_cons, List.not_mem_nil, or_false] at hmem
    rcases hmem with rfl | rfl
    · obtain ⟨_, _, word, args, q, rfl, hnone, hword, hleaf, rfl⟩ := Line.of_group hinner
      obtain ⟨rfl, rfl⟩ := hnone.eq_nil
      exact asks_of_friends hfront hword hleaf hc
    · obtain ⟨_, _, word, args, q, rfl, hnone, hword, hleaf, rfl⟩ := Line.of_group hinner
      obtain ⟨rfl, rfl⟩ := hnone.eq_nil
      exact asks_of_expenses hfront hword hleaf hc
  · cases hcommand

/-! ### There is one such call -/

theorem eq_or_eq_of_named? {group word : String} {given : List String}
    {call : Option String → Session.Step} (h : named? group word given = some call) :
    group = "friends" ∨ group = "expenses" := by
  unfold named? at h
  split at h
  all_goals first
    | exact .inl rfl
    | exact .inr rfl
    | cases h

/-- What follows the front of a line. -/
def afterFront : List String → List String
  | [] => []
  | arg :: args =>
    match Token.ofArgument arg with
    | .long _ none => args.drop 1
    | .long _ (some _) => args
    | _ => arg :: args

theorem Front.afterFront_append (h : Front front) {group : String}
    (hgroup : group = "friends" ∨ group = "expenses") :
    afterFront (front ++ group :: args) = group :: args := by
  cases h with
  | none => rcases hgroup with rfl | rfl <;> rfl
  | apart => rfl
  | @joined url =>
    have hurl : "--database-url=" ++ url = "--" ++ "database-url" ++ "=" ++ url := rfl
    have htoken := @Token.ofArgument_joined "database-url" url (by decide)
    rw [List.singleton_append, afterFront, hurl, htoken]

theorem Front.append_inj {front' args' : List String} (h : Front front) (h' : Front front')
    {group group' : String} (hgroup : group = "friends" ∨ group = "expenses")
    (hgroup' : group' = "friends" ∨ group' = "expenses")
    (heq : front ++ group :: args = front' ++ group' :: args') :
    group = group' ∧ args = args' := by
  have hafter := congrArg afterFront heq
  rw [h.afterFront_append hgroup, h'.afterFront_append hgroup'] at hafter
  exact List.cons.inj hafter

theorem Tells.unique {actor actor' : String} {d d' : Draft} (h : Tells values actor d)
    (h' : Tells values actor' d') : actor = actor' ∧ d = d' := by
  obtain ⟨details, totalCost, currency, timestamp, shares⟩ := d
  obtain ⟨details', totalCost', currency', timestamp', shares'⟩ := d'
  obtain rfl := Option.some.inj (h.actor.symm.trans h'.actor)
  obtain rfl : details = details' := Option.some.inj (h.details.symm.trans h'.details)
  obtain rfl : totalCost = totalCost' := Option.some.inj (h.total.symm.trans h'.total)
  obtain rfl : currency = currency' := Option.some.inj (h.currency.symm.trans h'.currency)
  obtain rfl : shares = shares' := Option.some.inj (h.shares.symm.trans h'.shares)
  obtain rfl : timestamp = timestamp' :=
    Option.map_injective (Option.some_injective _) (h.timestamp.symm.trans h'.timestamp)
  exact ⟨rfl, rfl⟩

theorem mem_of_lookup {name value : String} (h : values.lookup name = some value) :
    name ∈ values.map (·.1) := by
  obtain ⟨before, after, rfl, -⟩ := List.lookup_eq_some_iff.mp h
  simp

/-- Options that tell an expense are read as they are given. -/
theorem Tells.parse_eq {options : List String} {actor : String} {d : Draft}
    (h : Tells values actor d) (hoptions : Options addOptions [] options values)
    (hargs : args = options ∨ args = options ++ ["--"]) :
    parse addShape addShape.start args = .ok ⟨[], values⟩ := by
  obtain ⟨total, htotal, -⟩ := Option.bind_eq_some_iff.mp h.total
  obtain ⟨code, hcode, -⟩ := Option.bind_eq_some_iff.mp h.currency
  refine Options.parse_eq proper_addShape hoptions hargs ?_
  simp [addOptions, -List.mem_map, mem_of_lookup h.actor, mem_of_lookup h.details,
    mem_of_lookup htotal, mem_of_lookup hcode]

theorem Asks.unique {call call' : Option String → Session.Step} (h : Asks now args call)
    (h' : Asks now args call') : call = call' := by
  generalize hline : args = line at h'
  cases h with
  | @named front args group word call hfront hnamed =>
    cases h' with
    | @named front' args' group' word' call' hfront' hnamed' =>
      obtain ⟨rfl, hrest⟩ := hfront.append_inj hfront' (eq_or_eq_of_named? hnamed)
        (eq_or_eq_of_named? hnamed') hline
      obtain ⟨rfl, rfl⟩ := List.cons.inj hrest
      exact Option.some.inj (hnamed.symm.trans hnamed')
    | add hfront' hargs hoptions htells =>
      obtain ⟨rfl, hrest⟩ := hfront.append_inj hfront' (eq_or_eq_of_named? hnamed) (.inr rfl) hline
      obtain ⟨rfl, rfl⟩ := List.cons.inj hrest
      cases hnamed
  | add hfront hargs hoptions htells =>
    cases h' with
    | named hfront' hnamed =>
      obtain ⟨rfl, hrest⟩ := hfront.append_inj hfront' (.inr rfl) (eq_or_eq_of_named? hnamed) hline
      obtain ⟨rfl, rfl⟩ := List.cons.inj hrest
      cases hnamed
    | add hfront' hargs' hoptions' htells' =>
      obtain ⟨-, hrest⟩ := hfront.append_inj hfront' (.inr rfl) (.inr rfl) hline
      obtain ⟨-, rfl⟩ := List.cons.inj hrest
      have hparse := htells.parse_eq hoptions hargs
      rw [htells'.parse_eq hoptions' hargs'] at hparse
      cases hparse
      obtain ⟨rfl, rfl⟩ := htells.unique htells'
      rfl

end Lines

end CommandLine
end FriendLedger
