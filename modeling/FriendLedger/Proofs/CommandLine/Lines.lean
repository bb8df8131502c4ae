import FriendLedger.Proofs.CommandLine.Intake

/-! Lines of arguments against their grammar. Reading checks a value only when it comes to
the next one; it accepts the lines of the grammar all the same, and no others. -/

namespace FriendLedger.CommandLine

set_option autoImplicit false

section Parse
variable {shape : Shape} {st : Intake} {arg : String} {args : List String} {q : Parsed}

theorem parse_cons (h : st.trailing = true ∨ st.awaiting = true ∨ shape.isCommand arg = false) :
    parse shape st (arg :: args) = st.take shape arg >>= fun st' => parse shape st' args := by
  rw [parse, if_neg]
  rcases h with h | h | h <;> simp [h]

theorem settle_awaits (p : Parameter) (trailing : Bool) :
    Intake.settle { st.awaits p with trailing := trailing } = .error .missingValue := rfl

/-- Once options have ended, nothing is the value of an option that waits for one. -/
theorem parse_awaits_trailing (hshape : shape.Proper) (hst : st.Steady shape) {p : Parameter}
    (hp : p ∈ shape.options) : parse shape { st.awaits p with trailing := true } args ≠ .ok q := by
  cases args with
  | nil =>
    rw [parse, Intake.finish, settle_awaits]
    intro h
    cases h
  | cons arg args =>
    rw [parse_cons (.inl rfl), Intake.take, if_pos rfl, Intake.positional]
    cases hps : st.positionals with
    | nil =>
      have hpositionals : Intake.positionals { st.awaits p with trailing := true } = [] := hps
      rw [hpositionals]
      intro h
      cases h
    | cons p' ps =>
      have hpositionals : Intake.positionals { st.awaits p with trailing := true } = p' :: ps := hps
      have hne : p.name ≠ p'.name :=
        hshape.name_ne (hst.positionals p' (hps ▸ List.mem_cons_self)) hp
      rw [hpositionals]
      dsimp only
      rw [if_neg (by simp [Intake.awaits, hne]), settle_awaits]
      intro h
      cases h

theorem long_awaits_ne_ok {p : Parameter} {name : String} {value : Option String} {st' : Intake} :
    (st.awaits p).long shape name value ≠ .ok st' := by
  have hsettle : (st.awaits p).settle = .error .missingValue := rfl
  intro h
  unfold Intake.long at h
  split at h
  · rw [Intake.option, hsettle] at h
    cases h
  · rw [hsettle] at h
    split at h <;> cases h
  · split at h <;> cases h

theorem short_ne_ok {letter : Char} {st' : Intake} : st.short letter ≠ .ok st' := by
  intro h
  unfold Intake.short at h
  split at h
  · cases hsettle : st.settle <;> rw [hsettle] at h <;> cases h
  · cases h

theorem take_awaits (htrailing : st.trailing = false) (p : Parameter) (value : String) :
    (st.awaits p).take shape value =
      if p.takesHyphens = true then .ok (st.notes p value)
      else match Token.ofArgument value with
        | .plain => .ok (st.notes p value)
        | .endOfOptions => .ok { st.awaits p with trailing := true }
        | .long name v => (st.awaits p).long shape name v
        | .short letter => (st.awaits p).short letter := by
  have hnot : ¬ (st.awaits p).trailing = true := by simp [Intake.awaits, Intake.settled, htrailing]
  have hgreedy : (st.awaits p).isGreedy = p.takesHyphens := by simp [Intake.isGreedy, Intake.awaits]
  have hfeed : (st.awaits p).feed value = st.notes p value := rfl
  rw [Intake.take, if_neg hnot, hgreedy, hfeed]
  rfl

/-- An option that waits takes the next argument as its value, if it may. -/
theorem parse_awaits (htrailing : st.trailing = false) {p : Parameter} {value : String}
    (hvalue : p.takesHyphens = true ∨ IsPlain value) :
    parse shape (st.awaits p) (value :: args) = parse shape (st.notes p value) args := by
  have htake : (st.awaits p).take shape value = .ok (st.notes p value) := by
    rw [take_awaits htrailing]
    split
    · rfl
    · rename_i hhyphens
      rw [Token.ofArgument_eq_plain_iff.mpr (hvalue.resolve_left hhyphens)]
  rw [parse_cons (.inr (.inl rfl)), htake, ok_bind]

/-- Otherwise the line is refused. -/
theorem parse_awaits_ne_ok (hshape : shape.Proper) (hst : st.Steady shape)
    (htrailing : st.trailing = false) {p : Parameter} (hp : p ∈ shape.options) {value : String}
    (hvalue : ¬ (p.takesHyphens = true ∨ IsPlain value)) :
    parse shape (st.awaits p) (value :: args) ≠ .ok q := by
  obtain ⟨hhyphens, hplain⟩ := not_or.mp hvalue
  rw [parse_cons (.inr (.inl rfl)), take_awaits htrailing, if_neg hhyphens]
  cases htoken : Token.ofArgument value with
  | plain => exact absurd (Token.ofArgument_eq_plain_iff.mp htoken) hplain
  | endOfOptions => exact parse_awaits_trailing hshape hst hp
  | long name v =>
    intro h
    obtain ⟨_, hlong, -⟩ := bind_eq_ok_iff.mp h
    exact long_awaits_ne_ok hlong
  | short letter =>
    intro h
    obtain ⟨_, hshort, -⟩ := bind_eq_ok_iff.mp h
    exact short_ne_ok hshort

theorem parse_awaits_iff (hshape : shape.Proper) (hst : st.Steady shape)
    (htrailing : st.trailing = false) {p : Parameter} (hp : p ∈ shape.options) :
    parse shape (st.awaits p) args = .ok q ↔ ∃ value rest, args = value :: rest ∧
      (p.takesHyphens = true ∨ IsPlain value) ∧ parse shape (st.notes p value) rest = .ok q := by
  constructor
  · intro h
    cases args with
    | nil => cases h
    | cons value rest =>
      by_cases hvalue : p.takesHyphens = true ∨ IsPlain value
      · exact ⟨value, rest, rfl, hvalue, parse_awaits htrailing hvalue ▸ h⟩
      · exact absurd h (parse_awaits_ne_ok hshape hst htrailing hp hvalue)
  · rintro ⟨value, rest, rfl, hvalue, h⟩
    rw [parse_awaits htrailing hvalue, h]

theorem finish_leaf_eq_ok_iff {options positionals : List Parameter}
    (hst : st.Steady (.leaf options positionals)) :
    st.finish (.leaf options positionals) = .ok q ↔ st.Settles ∧ q = ⟨[], st.given⟩ ∧
      ∀ p ∈ options ++ positionals, p.required = true → p.name ∈ st.given.map (·.1) := by
  have hrequired : ((options ++ positionals).all fun p =>
      !p.required || st.settled.values.any (·.1 == p.name)) = true ↔
      ∀ p ∈ options ++ positionals, p.required = true → p.name ∈ st.given.map (·.1) := by
    simp only [List.all_eq_true, Bool.or_eq_true, Bool.not_eq_true', Intake.settled, any_name_iff]
    grind
  rw [Intake.finish, bind_eq_ok_iff]
  simp only [Intake.settle_eq_ok_iff hst]
  constructor
  · rintro ⟨_, ⟨hsettles, rfl⟩, h⟩
    split at h
    · rename_i hall
      cases h
      exact ⟨hsettles, rfl, hrequired.mp hall⟩
    · cases h
  · rintro ⟨hsettles, rfl, hall⟩
    refine ⟨_, ⟨hsettles, rfl⟩, ?_⟩
    rw [if_pos (hrequired.mpr hall)]
    rfl

theorem finish_group_ne_ok {options : List Parameter} {commands : List (String × Shape)} :
    st.finish (.group options commands) ≠ .ok q := by
  intro h
  rw [Intake.finish] at h
  cases hsettle : st.settle <;> rw [hsettle] at h <;> cases h

/-- What follows a value that was noted is read from there. -/
theorem settles_and_line_of_noted {st' : Intake} {p : Parameter} {value : String}
    {ps : List Parameter} (hnoted : st.Noted shape p value st') (hps : st'.positionals = ps)
    (h : st'.Settles ∧ Line shape st'.trailing st'.given st'.positionals args q) :
    st.Settles ∧ p.Fits st.given value ∧
      Line shape st.trailing (st.given ++ [(p.name, value)]) ps args q := by
  obtain ⟨hsettles, hline⟩ := h
  obtain ⟨hbefore, hfits⟩ := hnoted.settles.mp hsettles
  rw [hnoted.given, hnoted.trailing, hps] at hline
  exact ⟨hbefore, hfits, hline⟩

/-- After the name of a command the rest of the line is for that command; what was given
before the name is checked last. -/
theorem parse_command (hst : st.Steady shape) (htrailing : st.trailing = false)
    {c : String × Shape} (hc : shape.commands.find? (·.1 == c.1) = some c) :
    parse shape st (c.1 :: args) = parse c.2 c.2.start args >>= fun inner =>
      st.settle >>= fun st' => .ok ⟨c.1 :: inner.path, st'.values ++ inner.values⟩ := by
  rw [parse, if_pos (by simp [htrailing, hst.awaiting, Shape.isCommand_of_find? hc]), hc]
  rfl

theorem parse_command_eq_ok_iff (hst : st.Steady shape) (htrailing : st.trailing = false)
    {c : String × Shape} (hc : shape.commands.find? (·.1 == c.1) = some c) :
    parse shape st (c.1 :: args) = .ok q ↔ st.Settles ∧
      ∃ inner, parse c.2 c.2.start args = .ok inner ∧
        q = ⟨c.1 :: inner.path, st.given ++ inner.values⟩ := by
  rw [parse_command hst htrailing hc]
  simp only [bind_eq_ok_iff, Intake.settle_eq_ok_iff hst, Except.ok.injEq]
  constructor
  · rintro ⟨inner, hinner, _, ⟨hsettles, rfl⟩, rfl⟩
    exact ⟨hsettles, inner, hinner, rfl⟩
  · rintro ⟨hsettles, inner, hinner, rfl⟩
    exact ⟨inner, hinner, _, ⟨hsettles, rfl⟩, rfl⟩

/-- A line that begins with an option, with or without its value. -/
theorem parse_long (hshape : shape.Proper) (hst : st.Steady shape) (htrailing : st.trailing = false)
    {p : Parameter} (hp : shape.options.find? (·.name == p.name) = some p) {value : Option String}
    (harg : Token.ofArgument arg = .long p.name value) :
    parse shape st (arg :: args) = st.option p value >>= fun st' => parse shape st' args := by
  rw [parse_cons (.inr (.inr (hshape.isCommand_of_token (by rw [harg]; nofun)))),
    Intake.take_long hst htrailing harg hp]

theorem parse_option_iff (hshape : shape.Proper) (hst : st.Steady shape)
    (htrailing : st.trailing = false) {p : Parameter}
    (hp : shape.options.find? (·.name == p.name) = some p) :
    parse shape st (("--" ++ p.name) :: args) = .ok q ↔ st.Settles ∧ ∃ value rest,
      args = value :: rest ∧ (p.takesHyphens = true ∨ IsPlain value) ∧
        parse shape (st.notes p value) rest = .ok q := by
  have hmem := List.mem_of_find?_eq_some hp
  rw [parse_long hshape hst htrailing hp (Token.ofArgument_option (hshape.isOptionName hmem)),
    bind_eq_ok_iff, ← parse_awaits_iff hshape hst htrailing hmem]
  simp only [Intake.option_none_eq_ok_iff hst]
  constructor
  · rintro ⟨_, ⟨hsettles, rfl⟩, h⟩
    exact ⟨hsettles, h⟩
  · rintro ⟨hsettles, h⟩
    exact ⟨_, ⟨hsettles, rfl⟩, h⟩

theorem parse_joined_iff (hshape : shape.Proper) (hst : st.Steady shape)
    (htrailing : st.trailing = false) {p : Parameter} {value : String}
    (hp : shape.options.find? (·.name == p.name) = some p) :
    parse shape st (("--" ++ p.name ++ "=" ++ value) :: args) = .ok q ↔
      st.Settles ∧ p.Fits st.given value ∧ parse shape (st.notes p value).settled args = .ok q := by
  have hmem := List.mem_of_find?_eq_some hp
  rw [parse_long hshape hst htrailing hp (Token.ofArgument_joined (hshape.isOptionName hmem).2),
    bind_eq_ok_iff]
  simp only [Intake.option_some_eq_ok_iff hst hmem]
  constructor
  · rintro ⟨_, ⟨hsettles, hfits, rfl⟩, h⟩
    exact ⟨hsettles, hfits, h⟩
  · rintro ⟨hsettles, hfits, h⟩
    exact ⟨_, ⟨hsettles, hfits, rfl⟩, h⟩

/-- An option and its value are taken together, whatever follows them. -/
theorem parse_spelled (hshape : shape.Proper) (hst : st.Ready shape) {front : List String}
    {p : Parameter} {value : String} (hp : Spells shape.options front p value)
    (hfits : p.Fits st.given value) : ∃ st', Intake.Noted shape st p value st' ∧
      st'.positionals = st.positionals ∧
      ∀ args, parse shape st (front ++ args) = parse shape st' args := by
  cases hp with
  | apart hp hvalue =>
    have hmem := List.mem_of_find?_eq_some hp
    refine ⟨st.notes p value, Intake.noted_notes hst.settles (List.mem_append_left _ hmem)
      hst.steady.positionals, rfl, fun args => ?_⟩
    rw [List.cons_append, parse_long hshape hst.steady hst.trailing hp
        (Token.ofArgument_option (hshape.isOptionName hmem)),
      (Intake.option_none_eq_ok_iff hst.steady).mpr ⟨hst.settles, rfl⟩, ok_bind]
    exact parse_awaits hst.trailing hvalue
  | joined hp =>
    have hmem := List.mem_of_find?_eq_some hp
    refine ⟨(st.notes p value).settled, Intake.noted_settled hst.steady hst.settles hfits, rfl,
      fun args => ?_⟩
    rw [List.cons_append, parse_long hshape hst.steady hst.trailing hp
        (Token.ofArgument_joined (hshape.isOptionName hmem).2),
      (Intake.option_some_eq_ok_iff hst.steady hmem).mpr ⟨hst.settles, hfits, rfl⟩, ok_bind]
    rfl

theorem parse_endOfOptions (hshape : shape.Proper) (hst : st.Steady shape)
    (htrailing : st.trailing = false) :
    parse shape st ("--" :: args) = parse shape { st with trailing := true } args := by
  have hcommand : shape.isCommand "--" = false := hshape.isCommand_of_token nofun
  rw [parse_cons (.inr (.inr hcommand)), Intake.take_endOfOptions hst htrailing]
  rfl

theorem exists_of_long {name : String} {value : Option String} {st' : Intake}
    (h : st.long shape name value = .ok st') :
    ∃ p, shape.options.find? (·.name == name) = some p ∧ p.name = name := by
  cases hp : shape.options.find? (·.name == name) with
  | some p => exact ⟨p, rfl, by simpa using List.find?_some hp⟩
  | none =>
    unfold Intake.long at h
    rw [hp] at h
    cases value with
    | none =>
      dsimp only at h
      split at h
      · cases hs : st.settle <;> rw [hs] at h <;> cases h
      · cases h
    | some v =>
      dsimp only at h
      split at h <;> cases h

/-- How an accepted line can begin. -/
theorem first_cases (hshape : shape.Proper) (hst : st.Steady shape)
    (h : parse shape st (arg :: args) = .ok q) :
    (∃ c, st.trailing = false ∧ shape.commands.find? (·.1 == c.1) = some c ∧ arg = c.1) ∨
    (∃ p ps, (st.trailing = true ∨ IsPlain arg) ∧ st.positionals = p :: ps ∧
      ∃ st', st.positional shape arg = .ok st' ∧ parse shape st' args = .ok q) ∨
    (st.trailing = false ∧ arg = "--") ∨
    ∃ p, st.trailing = false ∧ shape.options.find? (·.name == p.name) = some p ∧
      (arg = "--" ++ p.name ∨ ∃ value, arg = "--" ++ p.name ++ "=" ++ value) := by
  by_cases hcommand : (!st.trailing && !st.awaiting && shape.isCommand arg) = true
  · rw [parse, if_pos hcommand] at h
    cases hc : shape.commands.find? (·.1 == arg) with
    | none =>
      rw [hc] at h
      cases h
    | some c =>
      obtain ⟨-, hname, -⟩ := hshape.isPlain_of_find? hc
      rw [← hname] at hc
      exact .inl ⟨c, by simp_all, hc, hname.symm⟩
  · have hnot : st.trailing = true ∨ st.awaiting = true ∨ shape.isCommand arg = false := by
      grind
    rw [parse_cons hnot] at h
    obtain ⟨st', htake, hrest⟩ := bind_eq_ok_iff.mp h
    by_cases hvalue : st.trailing = true ∨ IsPlain arg
    · rw [Intake.take_positional hst hvalue] at htake
      cases hps : st.positionals with
      | nil =>
        rw [Intake.positional, hps] at htake
        cases htake
      | cons p ps => exact .inr (.inl ⟨p, ps, hvalue, rfl, st', htake, hrest⟩)
    · obtain ⟨htrailing, hplain⟩ := not_or.mp hvalue
      rw [Bool.not_eq_true] at htrailing
      cases htoken : Token.ofArgument arg with
      | plain => exact absurd (Token.ofArgument_eq_plain_iff.mp htoken) hplain
      | endOfOptions =>
        exact .inr (.inr (.inl ⟨htrailing, Token.eq_of_ofArgument_endOfOptions htoken⟩))
      | long name value =>
        have hlong : st.long shape name value = .ok st' := by
          rw [← htake, Intake.take, htrailing, Intake.isGreedy, hst.awaiting, htoken]
          simp
        obtain ⟨p, hp, rfl⟩ := exists_of_long hlong
        refine .inr (.inr (.inr ⟨p, htrailing, hp, ?_⟩))
        obtain ⟨-, harg⟩ := Token.eq_of_ofArgument_long htoken
        cases value with
        | none => exact .inl harg.2
        | some v => exact .inr ⟨v, harg⟩
      | short letter =>
        have hshort : st.short letter = .ok st' := by
          rw [← htake, Intake.take, htrailing, Intake.isGreedy, hst.awaiting, htoken]
          simp
        exact absurd hshort short_ne_ok

theorem line_of_parse (hshape : shape.Proper) (hst : st.Steady shape)
    (h : parse shape st args = .ok q) :
    st.Settles ∧ Line shape st.trailing st.given st.positionals args q := by
  -- an option takes two arguments away, so the induction is on the length
  induction hn : args.length using Nat.strongRecOn generalizing shape st args q with
  | ind n ih =>
    subst hn
    cases args with
    | nil =>
      cases shape with
      | group options commands => exact absurd h finish_group_ne_ok
      | leaf options positionals =>
        obtain ⟨hsettles, rfl, hrequired⟩ := (finish_leaf_eq_ok_iff hst).mp h
        exact ⟨hsettles, .ends hrequired⟩
    | cons arg args =>
      have ih' {shape : Shape} {st : Intake} {rest : List String} {q : Parsed}
          (hle : rest.length ≤ args.length) (hshape : shape.Proper) (hst : st.Steady shape)
          (h : parse shape st rest = .ok q) :=
        ih rest.length (Nat.lt_succ_of_le hle) hshape hst h rfl
      rcases first_cases hshape hst h with ⟨c, htrailing, hc, rfl⟩ |
        ⟨p, ps, hvalue, hps, st', hst', hrest⟩ | ⟨htrailing, rfl⟩ |
        ⟨p, htrailing, hp, rfl | ⟨value, rfl⟩⟩
      · obtain ⟨hsettles, inner, hinner, rfl⟩ := (parse_command_eq_ok_iff hst htrailing hc).mp h
        obtain ⟨-, -, hproper⟩ := hshape.isPlain_of_find? hc
        obtain ⟨-, hline⟩ := ih' (Nat.le_refl _) hproper (Intake.steady_start c.2) hinner
        cases shape with
        | group options commands =>
          rw [htrailing]
          exact ⟨hsettles, .command hc hline⟩
        | leaf => cases hc
      · obtain ⟨hnoted, hps'⟩ := (Intake.positional_noted hshape hst hps arg).1 st' hst'
        obtain ⟨hsettles, hfits, hline⟩ := settles_and_line_of_noted hnoted hps'
          (ih' (Nat.le_refl _) hshape hnoted.steady hrest)
        rw [hps]
        exact ⟨hsettles, .positional hvalue hfits hline⟩
      · rw [parse_endOfOptions hshape hst htrailing] at h
        have hst' : Intake.Steady shape { st with trailing := true } := ⟨hst.1, hst.2, hst.3⟩
        obtain ⟨hsettles, hline⟩ := ih' (Nat.le_refl _) hshape hst' h
        rw [htrailing]
        exact ⟨hsettles, .endOfOptions hline⟩
      · obtain ⟨hsettles, value, rest, rfl, hvalue, hrest⟩ :=
          (parse_option_iff hshape hst htrailing hp).mp h
        have hnoted : Intake.Noted shape st p value (st.notes p value) :=
          Intake.noted_notes hsettles (List.mem_append_left _ (List.mem_of_find?_eq_some hp))
            hst.positionals
        obtain ⟨-, hfits, hline⟩ := settles_and_line_of_noted hnoted rfl
          (ih' (Nat.le_succ _) hshape hnoted.steady hrest)
        rw [htrailing] at hline ⊢
        exact ⟨hsettles, .option (.apart hp hvalue) hfits hline⟩
      · obtain ⟨hsettles, hfits, hrest⟩ := (parse_joined_iff hshape hst htrailing hp).mp h
        have hnoted := Intake.noted_settled hst hsettles hfits
        obtain ⟨-, -, hline⟩ := settles_and_line_of_noted hnoted rfl
          (ih' (Nat.le_refl _) hshape hnoted.steady hrest)
        rw [htrailing] at hline ⊢
        exact ⟨hsettles, .option (.joined hp) hfits hline⟩

theorem parse_of_line {trailing : Bool} {given : List (String × String)} {ps : List Parameter}
    (h : Line shape trailing given ps args q) (hshape : shape.Proper) (hst : st.Steady shape)
    (hsettles : st.Settles) (htrailing : st.trailing = trailing) (hgiven : st.given = given)
    (hps : st.positionals = ps) : parse shape st args = .ok q := by
  induction h generalizing st with
  | ends hrequired =>
    rw [← hgiven] at hrequired ⊢
    exact (finish_leaf_eq_ok_iff hst).mpr ⟨hsettles, rfl, hrequired⟩
  | @command options ps commands given c args q hc _ ih =>
    obtain ⟨-, -, hproper⟩ := hshape.isPlain_of_find? hc
    have hinner := ih hproper (Intake.steady_start c.2) (Intake.settles_start c.2) rfl rfl rfl
    rw [← hgiven]
    exact (parse_command_eq_ok_iff hst htrailing hc).mpr ⟨hsettles, _, hinner, rfl⟩
  | @option shape given ps front args p value q hp hfits _ ih =>
    subst hgiven
    have hready : st.Ready shape := ⟨hst, hsettles, htrailing⟩
    obtain ⟨st', hnoted, hps', hparse⟩ := parse_spelled hshape hready hp hfits
    have hready' := hnoted.ready hready hfits
    rw [hparse]
    exact ih hshape hready'.steady hready'.settles hready'.trailing hnoted.given (hps'.trans hps)
  | endOfOptions _ ih =>
    have hst' : Intake.Steady _ { st with trailing := true } := ⟨hst.1, hst.2, hst.3⟩
    rw [parse_endOfOptions hshape hst htrailing]
    exact ih hshape hst' hsettles rfl hgiven hps
  | @positional shape trailing given p ps value args q hvalue hfits _ ih =>
    subst hgiven
    have hmem : p ∈ shape.positionals := hst.positionals p (hps ▸ List.mem_cons_self)
    obtain ⟨hall, hexists⟩ := Intake.positional_noted hshape hst hps value
    obtain ⟨st', hst'⟩ := hexists hsettles
    obtain ⟨hnoted, hps'⟩ := hall st' hst'
    have hleaf : shape.isCommand value = false := by
      cases shape with
      | group => cases hmem
      | leaf => rfl
    rw [parse_cons (.inr (.inr hleaf)), Intake.take_positional hst (htrailing ▸ hvalue), hst',
      ok_bind]
    exact ih hshape hnoted.steady (hnoted.settles.mpr ⟨hsettles, hfits⟩)
      (hnoted.trailing.trans htrailing) hnoted.given hps'

/-- Exactly the lines of the grammar are accepted, and they are read as the grammar says. -/
theorem parse_start_eq_ok_iff (hshape : shape.Proper) :
    parse shape shape.start args = .ok q ↔ Line shape false [] shape.positionals args q :=
  ⟨fun h => (line_of_parse hshape (Intake.steady_start shape) h).2,
    fun h => parse_of_line h hshape (Intake.steady_start shape) (Intake.settles_start shape)
      rfl rfl rfl⟩

end Parse

end FriendLedger.CommandLine
