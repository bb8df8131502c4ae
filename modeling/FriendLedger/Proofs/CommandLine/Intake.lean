import FriendLedger.Proofs.CommandLine.Grammar
import FriendLedger.Proofs.Outcome

/-! The state of reading a line. A value is checked only when the next one comes; `given`
lists the values, checked or not, and `Settles` says that the check will pass. -/

namespace FriendLedger.CommandLine

set_option autoImplicit false

theorem any_name_iff {values : List (String × String)} {name : String} :
    values.any (·.1 == name) = true ↔ name ∈ values.map (·.1) := by
  simp

namespace Intake
variable {shape : Shape} {st st' : Intake}

/-- The values that were given, checked or not. -/
def given (st : Intake) : List (String × String) :=
  st.values ++ st.pending.elim [] fun x => x.2.map (x.1.name, ·)

/-- The values that have not been checked yet pass the check. -/
def Settles (st : Intake) : Prop := ∀ p vs, st.pending = some (p, vs) →
  (p.repeats = true ∨ p.name ∉ st.values.map (·.1)) ∧ ∀ v ∈ vs, p.accepts v = true

def settled (st : Intake) : Intake :=
  { st with values := st.given, pending := none, awaiting := false }

/-- No option waits for its value, and what is known of parameters is of the shape. -/
structure Steady (shape : Shape) (st : Intake) : Prop where
  awaiting : st.awaiting = false
  pending : ∀ p vs, st.pending = some (p, vs) → vs ≠ [] ∧ p ∈ shape.options ++ shape.positionals
  positionals : ∀ p ∈ st.positionals, p ∈ shape.positionals

theorem steady_start (shape : Shape) : shape.start.Steady shape where
  awaiting := rfl
  pending _ _ h := by cases h
  positionals _ h := h

theorem settles_start (shape : Shape) : shape.start.Settles := fun _ _ h => by cases h

theorem given_twice_iff {p : Parameter} {values : List (String × String)} :
    (!p.repeats && values.any (·.1 == p.name)) = true ↔
      ¬ (p.repeats = true ∨ p.name ∉ values.map (·.1)) := by
  simp

theorem settle_eq_ok_iff (hst : st.Steady shape) :
    st.settle = .ok st' ↔ st.Settles ∧ st' = st.settled := by
  obtain ⟨values, pending, awaiting, positionals, trailing⟩ := st
  cases hst.awaiting
  cases pending with
  | none =>
    have hsettled : Intake.settled ⟨values, none, false, positionals, trailing⟩ =
        ⟨values, none, false, positionals, trailing⟩ := by simp [settled, given]
    rw [hsettled]
    simp only [settle, Except.ok.injEq]
    refine ⟨fun h => ⟨?_, h.symm⟩, fun h => h.2.symm⟩
    intro _ _ hp
    cases hp
  | some x =>
    obtain ⟨p, vs⟩ := x
    cases vs with
    | nil => exact absurd rfl (hst.pending p [] rfl).1
    | cons v vs =>
      have hsettles : Intake.Settles ⟨values, some (p, v :: vs), false, positionals, trailing⟩ ↔
          (p.repeats = true ∨ p.name ∉ values.map (·.1)) ∧ ∀ w ∈ v :: vs, p.accepts w = true :=
        ⟨fun h => h p _ rfl, fun h _ _ hp => by cases hp; exact h⟩
      rw [hsettles]
      simp only [settle, given_twice_iff]
      split
      · rename_i hfree
        simp only [reduceCtorEq, false_iff]
        exact fun h => hfree h.1.1
      · rename_i hfree
        split
        · rename_i haccepts
          simp only [Except.ok.injEq]
          exact ⟨fun h => ⟨⟨not_not.mp hfree, List.all_eq_true.mp haccepts⟩, h.symm⟩,
            fun h => h.2.symm⟩
        · rename_i haccepts
          simp only [reduceCtorEq, false_iff]
          rintro ⟨⟨-, hall⟩, -⟩
          exact haccepts (List.all_eq_true.mpr hall)

/-- The state in which an option waits for its value. -/
def awaits (st : Intake) (p : Parameter) : Intake :=
  { st.settled with pending := some (p, []), awaiting := true }

/-- The state after a value that has not been checked yet. -/
def notes (st : Intake) (p : Parameter) (value : String) : Intake :=
  { st.settled with pending := some (p, [value]) }

theorem given_settled (st : Intake) : st.settled.given = st.given := by
  simp [settled, given]

theorem given_notes (st : Intake) (p : Parameter) (value : String) :
    (st.notes p value).given = st.given ++ [(p.name, value)] := rfl

theorem settles_notes_iff {p : Parameter} {value : String} :
    (st.notes p value).Settles ↔ p.Fits st.given value := by
  constructor
  · intro h
    obtain ⟨hfree, haccepts⟩ := h p [value] rfl
    exact ⟨hfree, haccepts value List.mem_cons_self⟩
  · rintro ⟨hfree, haccepts⟩ _ _ hp
    cases hp
    exact ⟨hfree, by simpa using haccepts⟩

theorem option_none_eq_ok_iff (hst : st.Steady shape) {p : Parameter} :
    st.option p none = .ok st' ↔ st.Settles ∧ st' = st.awaits p := by
  rw [option, bind_eq_ok_iff]
  simp only [settle_eq_ok_iff hst, pure_eq_ok, Except.ok.injEq]
  constructor
  · rintro ⟨_, ⟨hsettles, rfl⟩, rfl⟩
    exact ⟨hsettles, rfl⟩
  · rintro ⟨hsettles, rfl⟩
    exact ⟨_, ⟨hsettles, rfl⟩, rfl⟩

theorem option_some_eq_ok_iff (hst : st.Steady shape) {p : Parameter} {value : String}
    (hp : p ∈ shape.options) : st.option p (some value) = .ok st' ↔
      st.Settles ∧ p.Fits st.given value ∧ st' = (st.notes p value).settled := by
  have hnotes : (st.notes p value).Steady shape := by
    refine ⟨rfl, ?_, hst.positionals⟩
    intro _ _ h
    cases h
    exact ⟨List.cons_ne_nil _ _, List.mem_append_left _ hp⟩
  rw [option, bind_eq_ok_iff, ← settles_notes_iff, ← settle_eq_ok_iff hnotes]
  simp only [settle_eq_ok_iff hst]
  constructor
  · rintro ⟨_, ⟨hsettles, rfl⟩, h⟩
    exact ⟨hsettles, h⟩
  · rintro ⟨hsettles, h⟩
    exact ⟨_, ⟨hsettles, rfl⟩, h⟩

/-- A further value of a positional argument that repeats joins the ones before it. -/
theorem positional_eq_ok_iff (hst : st.Steady shape) {p : Parameter} {ps : List Parameter}
    (hps : st.positionals = p :: ps) {value : String} :
    st.positional shape value = .ok st' ↔
      if p.repeats && st.pending.any (·.1.name == p.name) then st' = st.feed value
      else st.Settles ∧
        st' = { st.notes p value with positionals := if p.repeats then p :: ps else ps } := by
  rw [positional, hps]
  dsimp only
  split
  · rw [Except.ok.injEq, eq_comm]
  · rw [bind_eq_ok_iff]
    simp only [settle_eq_ok_iff hst, pure_eq_ok, Except.ok.injEq]
    constructor
    · rintro ⟨_, ⟨hsettles, rfl⟩, rfl⟩
      exact ⟨hsettles, rfl⟩
    · rintro ⟨hsettles, rfl⟩
      exact ⟨_, ⟨hsettles, rfl⟩, rfl⟩

/-- A value has been given to a parameter; whether it fits may still be open. -/
structure Noted (shape : Shape) (st : Intake) (p : Parameter) (value : String) (st' : Intake) :
    Prop where
  steady : st'.Steady shape
  given : st'.given = st.given ++ [(p.name, value)]
  settles : st'.Settles ↔ st.Settles ∧ p.Fits st.given value
  trailing : st'.trailing = st.trailing

theorem noted_notes (hsettles : st.Settles) {p : Parameter} {value : String}
    (hp : p ∈ shape.options ++ shape.positionals) {ps : List Parameter}
    (hps : ∀ q ∈ ps, q ∈ shape.positionals) :
    Noted shape st p value { st.notes p value with positionals := ps } where
  steady := by
    refine ⟨rfl, ?_, hps⟩
    intro _ _ h
    cases h
    exact ⟨List.cons_ne_nil _ _, hp⟩
  given := rfl
  settles := by
    have hnotes : Intake.Settles { st.notes p value with positionals := ps } ↔
        p.Fits st.given value := settles_notes_iff
    rw [hnotes]
    exact (and_iff_right hsettles).symm
  trailing := rfl

theorem noted_settled (hst : st.Steady shape) (hsettles : st.Settles) {p : Parameter}
    {value : String} (hfits : p.Fits st.given value) : Noted shape st p value (st.notes p value).settled where
  steady := ⟨rfl, (fun _ _ h => nomatch h), hst.positionals⟩
  given := by rw [given_settled, given_notes]
  settles := iff_of_true (fun _ _ h => nomatch h) ⟨hsettles, hfits⟩
  trailing := rfl

theorem noted_feed (hst : st.Steady shape) {p : Parameter} {value : String} {vs : List String}
    (hrepeats : p.repeats = true) (hpending : st.pending = some (p, vs)) :
    Noted shape st p value (st.feed value) where
  steady := by
    refine ⟨rfl, ?_, hst.positionals⟩
    intro q ws h
    simp only [feed, hpending, Option.map_some] at h
    cases h
    exact ⟨by simp, (hst.pending p vs hpending).2⟩
  given := by simp [given, feed, hpending]
  settles := by
    have hfits : p.Fits st.given value ↔ p.accepts value = true := by
      rw [Parameter.Fits, hrepeats]
      simp
    rw [hfits]
    simp only [Settles, feed, hpending, Option.map_some, Option.some.injEq, Prod.mk.injEq]
    constructor
    · intro h
      obtain ⟨hfree, hall⟩ := h p _ ⟨rfl, rfl⟩
      refine ⟨?_, hall value (by simp)⟩
      rintro _ _ ⟨rfl, rfl⟩
      exact ⟨hfree, fun v hv => hall v (List.mem_append_left _ hv)⟩
    · rintro ⟨h, hvalue⟩ _ _ ⟨rfl, rfl⟩
      obtain ⟨hfree, hall⟩ := h p vs ⟨rfl, rfl⟩
      refine ⟨hfree, ?_⟩
      intro v hv
      rcases List.mem_append.mp hv with hv | hv
      · exact hall v hv
      · rw [List.mem_singleton.mp hv]
        exact hvalue
  trailing := rfl

/-- Between two arguments: what was met fits, and options may come. -/
structure Ready (shape : Shape) (st : Intake) : Prop where
  steady : st.Steady shape
  settles : st.Settles
  trailing : st.trailing = false

theorem ready_start (shape : Shape) : shape.start.Ready shape :=
  ⟨steady_start shape, settles_start shape, rfl⟩

theorem Noted.ready {p : Parameter} {value : String} (h : Noted shape st p value st')
    (hst : st.Ready shape) (hfits : p.Fits st.given value) : st'.Ready shape :=
  ⟨h.steady, h.settles.mpr ⟨hst.settles, hfits⟩, h.trailing.trans hst.trailing⟩

/-- What a positional argument does, if it comes to that. -/
theorem positional_noted (hshape : shape.Proper) (hst : st.Steady shape) {p : Parameter}
    {ps : List Parameter} (hps : st.positionals = p :: ps) (value : String) :
    (∀ st', st.positional shape value = .ok st' → Noted shape st p value st' ∧
      st'.positionals = if p.repeats then p :: ps else ps) ∧
    (st.Settles → ∃ st', st.positional shape value = .ok st') := by
  have hmem : p ∈ shape.positionals := hst.positionals p (hps ▸ List.mem_cons_self)
  simp only [positional_eq_ok_iff hst hps]
  split
  · rename_i hagain
    obtain ⟨hrepeats, hsame⟩ := Bool.and_eq_true_iff.mp hagain
    obtain ⟨⟨q, vs⟩, hpending, hname⟩ := (Option.any_eq_true _ _).mp hsame
    -- the parameter that was met last is this one, since it has its name
    have hq : q = p := hshape.eq_of_name_eq hmem (hst.pending q vs hpending).2 (by simpa using hname)
    rw [hq] at hpending
    refine ⟨?_, fun _ => ⟨_, rfl⟩⟩
    rintro _ rfl
    refine ⟨noted_feed hst hrepeats hpending, ?_⟩
    rw [if_pos hrepeats]
    exact hps
  · refine ⟨?_, fun hsettles => ⟨_, hsettles, rfl⟩⟩
    rintro _ ⟨hsettles, rfl⟩
    refine ⟨noted_notes hsettles (List.mem_append_right _ hmem) ?_, rfl⟩
    intro q hq
    apply hst.positionals
    rw [hps]
    split at hq
    · exact hq
    · exact List.mem_cons_of_mem p hq

/-! ### One argument -/

section Take
variable {arg : String}

theorem take_positional (hst : st.Steady shape) (h : st.trailing = true ∨ IsPlain arg) :
    st.take shape arg = st.positional shape arg := by
  rw [take]
  split
  · rfl
  · rename_i htrailing
    have hplain : IsPlain arg := h.resolve_left htrailing
    rw [isGreedy, hst.awaiting, Token.ofArgument_eq_plain_iff.mpr hplain]
    simp

theorem take_endOfOptions (hst : st.Steady shape) (h : st.trailing = false) :
    st.take shape "--" = .ok { st with trailing := true } := by
  have htoken : Token.ofArgument "--" = .endOfOptions := rfl
  rw [take, isGreedy, hst.awaiting, h, htoken]
  simp

theorem take_long (hst : st.Steady shape) (h : st.trailing = false) {name : String}
    {value : Option String} (harg : Token.ofArgument arg = .long name value) {p : Parameter}
    (hp : shape.options.find? (·.name == name) = some p) :
    st.take shape arg = st.option p value := by
  rw [take, isGreedy, hst.awaiting, h, harg]
  simp [long, hp]

end Take

end Intake

end FriendLedger.CommandLine
