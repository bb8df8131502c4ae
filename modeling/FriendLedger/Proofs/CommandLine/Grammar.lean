import FriendLedger.CommandLine.Command
import FriendLedger.Proofs.Text.Typed

/-! The grammar of lines of arguments. `Line` says how a line names a command and gives
values to the parameters of it, one value after another. -/

namespace FriendLedger.CommandLine

set_option autoImplicit false

/-! ### Arguments one by one -/

/-- An argument that does not look like an option. -/
def IsPlain (arg : String) : Prop := arg = "-" ∨ ∀ c ∈ arg.toList.head?, c ≠ '-'

instance (arg : String) : Decidable (IsPlain arg) :=
  @instDecidableOr _ _ _ (Option.decidableForallMem _)

/-- A name that an option can have. -/
def IsOptionName (name : String) : Prop := name ≠ "" ∧ '=' ∉ name.toList

namespace Token
variable {arg name value : String}

theorem ofArgument_eq_plain_iff : ofArgument arg = .plain ↔ IsPlain arg := by
  have harg : arg = "-" ↔ arg.toList = ['-'] := by rw [← String.toList_inj]; rfl
  rw [IsPlain, harg, ofArgument]
  generalize arg.toList = cs
  constructor
  · intro h
    split at h
    · cases h
    · split at h <;> cases h
    · cases h
    · rename_i hlone hlong hshort
      cases cs with
      | nil => simp
      | cons c cs =>
        by_cases hc : c = '-'
        · subst hc
          cases cs with
          | nil => exact .inl rfl
          | cons d ds => exact absurd rfl (hshort d ds)
        · exact .inr (by simpa using hc)
  · rintro (rfl | h)
    · rfl
    · split <;> simp_all

theorem ofArgument_of_hyphens {cs : List Char} (h : arg.toList = '-' :: '-' :: cs) (hne : cs ≠ []) :
    ofArgument arg =
      match cs.dropWhile (· ≠ '=') with
      | _ :: value => .long (String.ofList (cs.takeWhile (· ≠ '='))) (some (String.ofList value))
      | [] => .long (String.ofList cs) none := by
  rw [ofArgument, h]
  cases cs with
  | nil => exact absurd rfl hne
  | cons c cs => rfl

theorem ofArgument_option (h : IsOptionName name) : ofArgument ("--" ++ name) = .long name none := by
  obtain ⟨hne, hequals⟩ := h
  have harg : ("--" ++ name).toList = '-' :: '-' :: name.toList := by simp
  rw [ofArgument_of_hyphens harg (by simpa using hne), Text.dropWhile_ne_eq_nil_iff.mpr hequals]
  simp

theorem ofArgument_joined (h : '=' ∉ name.toList) :
    ofArgument ("--" ++ name ++ "=" ++ value) = .long name (some value) := by
  have harg : ("--" ++ name ++ "=" ++ value).toList =
      '-' :: '-' :: (name.toList ++ '=' :: value.toList) := by simp
  rw [ofArgument_of_hyphens harg (by simp), Text.dropWhile_ne_append h, Text.takeWhile_ne_append h]
  simp

theorem eq_of_ofArgument_endOfOptions (h : ofArgument arg = .endOfOptions) : arg = "--" := by
  rw [ofArgument] at h
  split at h
  · rename_i heq
    rw [← String.toList_inj, heq]
    rfl
  · split at h <;> cases h
  · cases h
  · cases h

theorem eq_of_ofArgument_long {value : Option String} (h : ofArgument arg = .long name value) :
    '=' ∉ name.toList ∧ match value with
      | none => name ≠ "" ∧ arg = "--" ++ name
      | some v => arg = "--" ++ name ++ "=" ++ v := by
  by_cases hcs : ∃ cs, arg.toList = '-' :: '-' :: cs ∧ cs ≠ []
  · obtain ⟨cs, harg, hne⟩ := hcs
    rw [ofArgument_of_hyphens harg hne] at h
    by_cases hequals : '=' ∈ cs
    · obtain ⟨before, after, rfl, hbefore⟩ := List.eq_append_cons_of_mem hequals
      rw [Text.dropWhile_ne_append hbefore, Text.takeWhile_ne_append hbefore] at h
      cases h
      have hname : arg = "--" ++ String.ofList before ++ "=" ++ String.ofList after := by
        rw [← String.toList_inj, harg]
        simp
      exact ⟨by simpa using hbefore, hname⟩
    · rw [Text.dropWhile_ne_eq_nil_iff.mpr hequals] at h
      cases h
      have hname : arg = "--" ++ String.ofList cs := by
        rw [← String.toList_inj, harg]
        simp
      exact ⟨by simpa using hequals, by simpa [← String.toList_eq_nil_iff] using hne, hname⟩
  · rw [ofArgument] at h
    split at h
    · cases h
    · rename_i cs hlone harg
      exact absurd ⟨cs, harg, hlone⟩ hcs
    · cases h
    · cases h

end Token

/-! ### The grammar -/

/-- The value fits to a parameter that repeats or has not been given yet. -/
def Parameter.Fits (p : Parameter) (given : List (String × String)) (value : String) : Prop :=
  (p.repeats = true ∨ p.name ∉ given.map (·.1)) ∧ p.accepts value = true

/-- How an option and its value are spelled. -/
inductive Spells (options : List Parameter) : List String → Parameter → String → Prop
  | apart {p : Parameter} {value : String} (hp : options.find? (·.name == p.name) = some p)
      (hvalue : p.takesHyphens = true ∨ IsPlain value) :
      Spells options ["--" ++ p.name, value] p value
  | joined {p : Parameter} {value : String} (hp : options.find? (·.name == p.name) = some p) :
      Spells options ["--" ++ p.name ++ "=" ++ value] p value

/-- The lines that are accepted where the values `given` have been given, `positionals` are
still to come and, if `trailing`, options have ended. -/
inductive Line :
    Shape → Bool → List (String × String) → List Parameter → List String → Parsed → Prop
  | ends {options positionals ps : List Parameter} {trailing : Bool} {given : List (String × String)}
      (h : ∀ p ∈ options ++ positionals, p.required = true → p.name ∈ given.map (·.1)) :
      Line (.leaf options positionals) trailing given ps [] ⟨[], given⟩
  | command {options ps : List Parameter} {commands : List (String × Shape)}
      {given : List (String × String)} {c : String × Shape} {args : List String} {q : Parsed}
      (hc : commands.find? (·.1 == c.1) = some c) (h : Line c.2 false [] c.2.positionals args q) :
      Line (.group options commands) false given ps (c.1 :: args) ⟨c.1 :: q.path, given ++ q.values⟩
  | option {shape : Shape} {given : List (String × String)} {ps : List Parameter}
      {front args : List String} {p : Parameter} {value : String} {q : Parsed}
      (hp : Spells shape.options front p value) (hfits : p.Fits given value)
      (h : Line shape false (given ++ [(p.name, value)]) ps args q) :
      Line shape false given ps (front ++ args) q
  | endOfOptions {shape : Shape} {given : List (String × String)} {ps : List Parameter}
      {args : List String} {q : Parsed} (h : Line shape true given ps args q) :
      Line shape false given ps ("--" :: args) q
  | positional {shape : Shape} {trailing : Bool} {given : List (String × String)}
      {p : Parameter} {ps : List Parameter} {value : String} {args : List String} {q : Parsed}
      (hvalue : trailing = true ∨ IsPlain value) (hfits : p.Fits given value)
      (h : Line shape trailing (given ++ [(p.name, value)]) (if p.repeats then p :: ps else ps)
        args q) :
      Line shape trailing given (p :: ps) (value :: args) q

/-- Names are such that the parts of a line cannot be taken for each other. -/
inductive Shape.Proper : Shape → Prop
  | group {options : List Parameter} {commands : List (String × Shape)}
      (hoptions : ∀ p ∈ options, IsOptionName p.name) (hplain : ∀ c ∈ commands, IsPlain c.1)
      (h : ∀ c ∈ commands, c.2.Proper) : (Shape.group options commands).Proper
  | leaf {options positionals : List Parameter} (hoptions : ∀ p ∈ options, IsOptionName p.name)
      (hapart : ∀ p ∈ positionals, ∀ q ∈ options, q.name ≠ p.name)
      (hdistinct : ∀ p ∈ positionals, ∀ q ∈ positionals, q.name = p.name → q = p) :
      (Shape.leaf options positionals).Proper

namespace Shape.Proper
variable {shape : Shape} (h : shape.Proper)
include h

theorem isOptionName {p : Parameter} (hp : p ∈ shape.options) : IsOptionName p.name := by
  cases h with
  | group hoptions => exact hoptions p hp
  | leaf hoptions => exact hoptions p hp

theorem name_ne {p q : Parameter} (hp : p ∈ shape.positionals) (hq : q ∈ shape.options) :
    q.name ≠ p.name := by
  cases h with
  | group => cases hp
  | leaf _ hapart => exact hapart p hp q hq

theorem eq_of_name_eq {p q : Parameter} (hp : p ∈ shape.positionals)
    (hq : q ∈ shape.options ++ shape.positionals) (hname : q.name = p.name) : q = p := by
  rcases List.mem_append.mp hq with hoption | hpositional
  · exact absurd hname (h.name_ne hp hoption)
  · cases h with
    | group => cases hp
    | leaf _ _ hdistinct => exact hdistinct p hp q hpositional hname

theorem isPlain_of_find? {arg : String} {c : String × Shape}
    (hc : shape.commands.find? (·.1 == arg) = some c) : IsPlain arg ∧ c.1 = arg ∧ c.2.Proper := by
  have harg : c.1 = arg := by simpa using List.find?_some hc
  have hmem := List.mem_of_find?_eq_some hc
  cases h with
  | group _ hplain hinner => exact ⟨harg ▸ hplain c hmem, harg, hinner c hmem⟩
  | leaf => cases hmem

theorem isPlain_of_isCommand {arg : String} (hc : shape.isCommand arg = true) : IsPlain arg := by
  cases h with
  | group _ hplain =>
    simp only [Shape.isCommand, Bool.or_eq_true, beq_iff_eq, List.any_eq_true] at hc
    rcases hc with rfl | ⟨c, hmem, rfl⟩
    · decide
    · exact hplain c hmem
  | leaf => cases hc

theorem isCommand_of_token {arg : String} (harg : Token.ofArgument arg ≠ .plain) :
    shape.isCommand arg = false := by
  rw [Bool.eq_false_iff]
  exact fun hc => harg (Token.ofArgument_eq_plain_iff.mpr (h.isPlain_of_isCommand hc))

end Shape.Proper

theorem Shape.isCommand_of_find? {shape : Shape} {arg : String} {c : String × Shape}
    (h : shape.commands.find? (·.1 == arg) = some c) : shape.isCommand arg = true := by
  cases shape with
  | group options commands =>
    rw [isCommand, Bool.or_eq_true]
    have hname : (c.1 == arg) = true := by simpa using List.find?_some h
    exact .inr (List.any_eq_true.mpr ⟨c, List.mem_of_find?_eq_some h, hname⟩)
  | leaf => cases h

end FriendLedger.CommandLine
