import FriendLedger.Proofs.CommandLine.Lines

/-! The parts of a line: options in front, the name of a command, and what the command is
given, as options or by position. -/

namespace FriendLedger.CommandLine

set_option autoImplicit false

/-! ### Options in a row -/

/-- Options with their values, one after another; with them the values `all` are given. -/
inductive Options (options : List Parameter) :
    List (String × String) → List String → List (String × String) → Prop
  | nil {given : List (String × String)} : Options options given [] given
  | cons {given all : List (String × String)} {front args : List String} {p : Parameter}
      {value : String} (hp : Spells options front p value) (hfits : p.Fits given value)
      (h : Options options (given ++ [(p.name, value)]) args all) :
      Options options given (front ++ args) all

theorem Spells.mem {options : List Parameter} {front : List String} {p : Parameter} {value : String}
    (h : Spells options front p value) : p ∈ options := by
  cases h with
  | apart hp => exact List.mem_of_find?_eq_some hp
  | joined hp => exact List.mem_of_find?_eq_some hp

namespace Options
variable {options : List Parameter} {given all : List (String × String)} {args : List String}

theorem append {args' : List String} {all' : List (String × String)}
    (h : Options options given args all) (h' : Options options all args' all') :
    Options options given (args ++ args') all' := by
  induction h with
  | nil => exact h'
  | cons hp hfits _ ih =>
    rw [List.append_assoc]
    exact .cons hp hfits (ih h')

/-- An option whose value is the next argument. -/
theorem apart (p : Parameter) {value : String} (hp : options.find? (·.name == p.name) = some p)
    (hvalue : p.takesHyphens = true ∨ IsPlain value) (hfits : p.Fits given value)
    (h : Options options (given ++ [(p.name, value)]) args all) :
    Options options given (("--" ++ p.name) :: value :: args) all :=
  .cons (.apart hp hvalue) hfits h

theorem name_mem (h : Options options given args all) {x : String × String} (hx : x ∈ all) :
    x ∈ given ∨ x.1 ∈ options.map (·.name) := by
  induction h with
  | nil => exact .inl hx
  | cons hp _ _ ih =>
    rcases ih hx with hmem | hname
    · rcases List.mem_append.mp hmem with hgiven | hnew
      · exact .inl hgiven
      · rw [List.mem_singleton.mp hnew]
        exact .inr (List.mem_map_of_mem hp.mem)
    · exact .inr hname

theorem eq_nil (h : Options [] given args all) : args = [] ∧ all = given := by
  cases h with
  | nil => exact ⟨rfl, rfl⟩
  | cons hp => cases hp.mem

/-- Options in a row are read one by one, whatever follows them. -/
theorem parse_append {shape : Shape} (hshape : shape.Proper)
    (h : Options shape.options given args all) {st : Intake} (hst : st.Ready shape) (hgiven : st.given = given) :
    ∃ st', st'.Ready shape ∧ st'.given = all ∧ st'.positionals = st.positionals ∧
      ∀ rest, parse shape st (args ++ rest) = parse shape st' rest := by
  induction h generalizing st with
  | nil => exact ⟨st, hst, hgiven, rfl, fun rest => rfl⟩
  | @cons given all front args p value hp hfits _ ih =>
    subst hgiven
    obtain ⟨st₁, hnoted, hps₁, hparse₁⟩ := parse_spelled hshape hst hp hfits
    obtain ⟨st₂, hst₂, hall, hps₂, hparse₂⟩ := ih (hnoted.ready hst hfits) hnoted.given
    refine ⟨st₂, hst₂, hall, hps₂.trans hps₁, fun rest => ?_⟩
    rw [List.append_assoc, hparse₁, hparse₂]

/-- A command that has options only takes them, with or without the mark of their end. -/
theorem parse_eq {front : List String} (hproper : (Shape.leaf options []).Proper)
    (h : Options options [] front all) (hargs : args = front ∨ args = front ++ ["--"])
    (hrequired : ∀ p ∈ options, p.required = true → p.name ∈ all.map (·.1)) :
    parse (.leaf options []) (Shape.leaf options []).start args = .ok ⟨[], all⟩ := by
  obtain ⟨st, hst, hgiven, -, hparse⟩ := parse_append hproper h (Intake.ready_start _) rfl
  have hall : ∀ p ∈ options ++ [], p.required = true → p.name ∈ st.given.map (·.1) := by
    rw [List.append_nil, hgiven]
    exact hrequired
  rcases hargs with rfl | rfl
  · have hfront := hparse []
    rw [List.append_nil] at hfront
    rw [hfront, parse, finish_leaf_eq_ok_iff hst.steady]
    exact ⟨hst.settles, by rw [hgiven], hall⟩
  · have htrailing : Intake.Steady (.leaf options []) { st with trailing := true } :=
      ⟨hst.steady.1, hst.steady.2, hst.steady.3⟩
    rw [hparse, parse_endOfOptions hproper hst.steady hst.trailing, parse,
      finish_leaf_eq_ok_iff htrailing]
    exact ⟨hst.settles, by rw [← hgiven]; rfl, hall⟩

end Options

/-! ### Taking lines apart -/

namespace Line
variable {options positionals ps : List Parameter} {commands : List (String × Shape)}
  {trailing : Bool} {given : List (String × String)} {args : List String} {q : Parsed}

/-- A line for a group has options of the group in front and then names a command. -/
theorem of_group (h : Line (.group options commands) false given [] args q) :
    ∃ front all c rest inner, args = front ++ c.1 :: rest ∧ Options options given front all ∧
      commands.find? (·.1 == c.1) = some c ∧ Line c.2 false [] c.2.positionals rest inner ∧
      q = ⟨c.1 :: inner.path, all ++ inner.values⟩ := by
  generalize hshape : Shape.group options commands = shape at h
  generalize hps : ([] : List Parameter) = ps at h
  generalize htrailing : false = trailing at h
  induction h with
  | ends => cases hshape
  | command hc hinner =>
    cases hshape
    exact ⟨[], _, _, _, _, rfl, .nil, hc, hinner, rfl⟩
  | option hp hfits _ ih =>
    cases hshape
    obtain ⟨front, all, c, rest, inner, rfl, hoptions, hc, hinner, rfl⟩ := ih rfl hps rfl
    refine ⟨_, all, c, rest, inner, ?_, .cons hp hfits hoptions, hc, hinner, rfl⟩
    rw [List.append_assoc]
  | endOfOptions h =>
    cases hshape
    cases hps
    cases h
  | positional => cases hps

/-- Where options have no place, every argument but the mark of their end is a value. -/
inductive Fills : List Parameter → List String → List (String × String) → Prop
  | nil {ps : List Parameter} : Fills ps [] []
  | cons {p : Parameter} {ps : List Parameter} {value : String} {args : List String}
      {values : List (String × String)}
      (h : Fills (if p.repeats then p :: ps else ps) args values) :
      Fills (p :: ps) (value :: args) ((p.name, value) :: values)

theorem of_positionals (h : Line (.leaf [] positionals) trailing given ps args q) :
    ∃ values, q = ⟨[], given ++ values⟩ ∧
      Fills ps (if trailing then args else args.erase "--") values ∧
      ∀ p ∈ positionals, p.required = true → p.name ∈ (given ++ values).map (·.1) := by
  generalize hshape : Shape.leaf [] positionals = shape at h
  induction h with
  | ends hrequired =>
    cases hshape
    refine ⟨[], by rw [List.append_nil], by simpa using .nil, ?_⟩
    rw [List.append_nil]
    exact hrequired
  | command => cases hshape
  | option hp =>
    cases hshape
    cases hp.mem
  | endOfOptions _ ih =>
    obtain ⟨values, rfl, hfills, hrequired⟩ := ih hshape
    exact ⟨values, rfl, by simpa using hfills, hrequired⟩
  | @positional shape trailing given p ps value args q hvalue _ _ ih =>
    obtain ⟨values, rfl, hfills, hrequired⟩ := ih hshape
    refine ⟨(p.name, value) :: values, by simp, ?_, by simpa using hrequired⟩
    have hargs : (if trailing then value :: args else (value :: args).erase "--") =
        value :: if trailing then args else args.erase "--" := by
      split
      · rfl
      · rename_i htrailing
        have hne : value ≠ "--" := by
          rintro rfl
          exact absurd (hvalue.resolve_left htrailing) (by simp [IsPlain])
        rw [List.erase_cons_tail (by simpa using hne)]
    rw [hargs]
    exact .cons hfills

namespace Fills
variable {p p' : Parameter} {values : List (String × String)}

/-- A parameter that repeats takes all that is left. -/
theorem repeating (hp : p.repeats = true) (h : Fills [p] args values) :
    values = args.map (p.name, ·) := by
  induction args generalizing values with
  | nil => cases h with | nil => rfl
  | cons arg args ih =>
    cases h with
    | cons h =>
      rw [hp] at h
      rw [ih h]
      rfl

theorem first (hp : p.repeats = false) (hgiven : p.name ∈ values.map (·.1))
    (h : Fills (p :: ps) args values) :
    ∃ arg args' values', args = arg :: args' ∧ values = (p.name, arg) :: values' ∧
      Fills ps args' values' := by
  cases h with
  | nil => cases hgiven
  | cons h =>
    rw [hp] at h
    exact ⟨_, _, _, rfl, rfl, h⟩

theorem eq_nil (h : Fills [] args values) : args = [] ∧ values = [] := by
  cases h
  exact ⟨rfl, rfl⟩

theorem one (hp : p.repeats = false) (hgiven : p.name ∈ values.map (·.1))
    (h : Fills [p] args values) : ∃ arg, args = [arg] ∧ values = [(p.name, arg)] := by
  obtain ⟨arg, args', values', rfl, rfl, hrest⟩ := h.first hp hgiven
  obtain ⟨rfl, rfl⟩ := hrest.eq_nil
  exact ⟨arg, rfl, rfl⟩

theorem two (hp : p.repeats = false) (hp' : p'.repeats = false) (hne : p'.name ≠ p.name)
    (hgiven : p.name ∈ values.map (·.1)) (hgiven' : p'.name ∈ values.map (·.1))
    (h : Fills [p, p'] args values) :
    ∃ arg arg', args = [arg, arg'] ∧ values = [(p.name, arg), (p'.name, arg')] := by
  obtain ⟨arg, args', values', rfl, rfl, hrest⟩ := h.first hp hgiven
  rw [List.map_cons, List.mem_cons] at hgiven'
  obtain ⟨arg', rfl, rfl⟩ := hrest.one hp' (hgiven'.resolve_left hne)
  exact ⟨arg, arg', rfl, rfl⟩

end Fills

theorem of_one {name : String} {accepts : String → Bool}
    (h : Line (.leaf [] [CommandLine.positional name accepts]) false []
      [CommandLine.positional name accepts] args q) :
    ∃ arg, args.erase "--" = [arg] ∧ q = ⟨[], [(name, arg)]⟩ := by
  obtain ⟨values, rfl, hfills, hgiven⟩ := h.of_positionals
  obtain ⟨arg, hargs, rfl⟩ := Fills.one rfl (hgiven _ List.mem_cons_self rfl) hfills
  exact ⟨arg, hargs, rfl⟩

theorem of_two {name name' : String} (hne : name' ≠ name) {accepts accepts' : String → Bool}
    (h : Line (.leaf [] [CommandLine.positional name accepts, CommandLine.positional name' accepts'])
      false [] [CommandLine.positional name accepts, CommandLine.positional name' accepts'] args q) :
    ∃ arg arg', args.erase "--" = [arg, arg'] ∧ q = ⟨[], [(name, arg), (name', arg')]⟩ := by
  obtain ⟨values, rfl, hfills, hgiven⟩ := h.of_positionals
  obtain ⟨arg, arg', hargs, rfl⟩ := Fills.two rfl rfl hne (hgiven _ List.mem_cons_self rfl)
    (hgiven _ (List.mem_cons_of_mem _ List.mem_cons_self) rfl) hfills
  exact ⟨arg, arg', hargs, rfl⟩

/-- A line of a command without positional arguments is its options, and perhaps the mark of
their end. -/
theorem of_options (h : Line (.leaf options []) false given [] args q) :
    ∃ front all, (args = front ∨ args = front ++ ["--"]) ∧ Options options given front all ∧
      q = ⟨[], all⟩ ∧ ∀ p ∈ options, p.required = true → p.name ∈ all.map (·.1) := by
  generalize hshape : Shape.leaf options [] = shape at h
  generalize hps : ([] : List Parameter) = ps at h
  generalize htrailing : false = trailing at h
  induction h with
  | ends hrequired =>
    cases hshape
    exact ⟨[], _, .inl rfl, .nil, rfl, by simpa using hrequired⟩
  | command => cases hshape
  | option hp hfits _ ih =>
    cases hshape
    obtain ⟨front, all, hargs, hoptions, rfl, hrequired⟩ := ih rfl hps rfl
    refine ⟨_, all, ?_, .cons hp hfits hoptions, rfl, hrequired⟩
    rcases hargs with rfl | rfl
    · exact .inl rfl
    · exact .inr (List.append_assoc ..).symm
  | endOfOptions h =>
    cases hshape
    cases hps
    cases h with
    | ends hrequired => exact ⟨[], _, .inr rfl, .nil, rfl, by simpa using hrequired⟩
  | positional => cases hps

end Line

/-! ### The commands of the program -/

theorem proper_positionals {positionals : List Parameter}
    (h : ∀ p ∈ positionals, ∀ q ∈ positionals, q.name = p.name → q = p) :
    (Shape.leaf [] positionals).Proper :=
  .leaf (List.forall_mem_nil _) (fun _ _ _ hq => nomatch hq) h

theorem proper_friendsShape : friendsShape.Proper := by
  refine .group (List.forall_mem_nil _) ?_ ?_
  · simp only [List.forall_mem_cons]
    refine ⟨?_, ?_, ?_, ?_, ?_, ?_, List.forall_mem_nil _⟩ <;> decide
  · simp only [List.forall_mem_cons]
    refine ⟨?_, ?_, ?_, ?_, ?_, ?_, List.forall_mem_nil _⟩ <;>
      exact proper_positionals (by simp [user, positional])

def addShape : Shape := .leaf addOptions []

theorem proper_addShape : addShape.Proper := by
  refine .leaf ?_ (List.forall_mem_nil _) (List.forall_mem_nil _)
  simp only [addOptions, List.forall_mem_cons]
  refine ⟨?_, ?_, ?_, ?_, ?_, ?_, List.forall_mem_nil _⟩ <;> exact ⟨by decide, by decide⟩

theorem proper_expensesShape : expensesShape.Proper := by
  refine .group (List.forall_mem_nil _) ?_ ?_
  · simp only [List.forall_mem_cons]
    refine ⟨?_, ?_, ?_, ?_, ?_, List.forall_mem_nil _⟩ <;> decide
  · simp only [List.forall_mem_cons]
    refine ⟨proper_addShape, ?_, ?_, ?_, ?_, List.forall_mem_nil _⟩ <;>
      exact proper_positionals (by simp [user, expenseId, positional])

theorem proper_shape : shape.Proper := by
  refine .group ?_ ?_ ?_
  · simp [IsOptionName]
  · simp [IsPlain]
  · simp only [List.forall_mem_cons]
    exact ⟨proper_friendsShape, proper_expensesShape, List.forall_mem_nil _⟩

end FriendLedger.CommandLine
