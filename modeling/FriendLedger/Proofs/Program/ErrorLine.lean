import FriendLedger.Program
import FriendLedger.Proofs.Json.Line
import FriendLedger.Proofs.Json.RoundTrip

/-! What a run reports of a failure: one line, the document of a code and a message, with
which the error text ends. What is logged before this line, and the texts of usage, of help
and of a start that fails, are no part of an outcome. The line of an internal failure is the
same for all of them, so runs that fail internally cannot be told apart by what they report,
whatever has been read, stored or asked for. -/

namespace FriendLedger

set_option autoImplicit false

/-- The line is one object that has exactly an error and a message. -/
structure Reports (line code message : String) : Prop where
  newline_not_mem : '\n' ∉ line.toList
  document : ∃ j error text, Json.read? line = some j ∧
    j.fields? = some [("error", error), ("message", text)] ∧
    error.text? = some code ∧ text.text? = some message

namespace Failure

theorem reports_errorLine (f : Failure) : Reports f.errorLine f.code.text
    (if f.code = .internal then "internal error" else f.message) := by
  have hcomposed (code message : String) : (Json.ofFields [("error", .ofText code),
      ("message", .ofText message)]).Composed := by
    refine .fields fun field hfield => ?_
    simp only [List.mem_cons, List.not_mem_nil, or_false] at hfield
    rcases hfield with rfl | rfl
    · exact .text code
    · exact .text message
  refine ⟨?_, _, _, _, (hcomposed _ _).read?_line, Json.fields?_ofFields _, Json.text?_ofText _, ?_⟩
  · rw [errorLine, Json.line, String.toList_ofList]
    exact (hcomposed _ _).inline_compact.newline_not_mem
  · simp only [Json.text?_ofText, isInternal, decide_eq_true_eq]

/-- Internal is what concerns ids and rows that cannot be read, reversals and the store. -/
theorem code_eq_internal_iff {f : Failure} : f.code = .internal ↔
    (∃ reason, f = .invalidId reason ∨ f = .corruptRow reason ∨ f = .compensation reason) ∨
      (∃ cause, f = .rollbackFailed cause) ∨ ∃ fault, f = .database fault := by
  cases f <;> simp [code]

/-- Why an internal failure has come about makes no difference. -/
theorem errorLine_of_internal {f : Failure} (h : f.code = .internal) : f.errorLine =
    "\x7b\"error\":\"internal\",\"message\":\"internal error\"\x7d" := by
  simp only [errorLine, isInternal, h, decide_true, if_true]
  decide +kernel

end Failure

namespace Program
variable {args : List String} {g : Surroundings} {d : Directory}

/-- The run comes to its command, which answers. A store that takes no writes has to be set
up already. -/
inductive Answers (args : List String) (g : Surroundings) (d : Directory) :
    Except Stop Answer → Prop
  | writable {c : Command} {l : Location} {o : Directory.Opened}
      (hplan : plan args g d = .ok (c, l)) (hopen : d.open? l = some o)
      (hwritable : o.writable = true) : Answers args g d (execute c g o.store).1
  | readOnly {c : Command} {l : Location} {o : Directory.Opened}
      (hplan : plan args g d = .ok (c, l)) (hopen : d.open? l = some o)
      (hwritable : o.writable = false) (hrecorded : o.store.recorded = true) :
      Answers args g d (readOnlyAnswer c (execute c g o.store).1)

theorem Answers.outcome_eq {answer : Except Stop Answer} (h : Answers args g d answer) :
    (run args g d).1 = outcomeOf answer := by
  cases h with
  | writable hplan hopen hwritable => simp [run, runAt, runOn, hplan, hopen, hwritable]
  | readOnly hplan hopen hwritable hrecorded =>
    simp [run, runAt, runOn, hplan, hopen, hwritable, hrecorded]

theorem plan_error_silent {outcome : Outcome} (h : plan args g d = .error outcome) :
    ∃ n, outcome = .silent n := by
  simp only [plan] at h
  split at h
  · rename_i fault _
    cases h
    cases fault <;> exact ⟨_, rfl⟩
  split at h
  · rename_i fault _
    cases h
    cases fault <;> exact ⟨_, rfl⟩
  split at h
  · cases h
    exact ⟨1, rfl⟩
  · cases h

/-- A run that does not come to its command has no answer and no failure to report. -/
theorem answers_or_silent (args : List String) (g : Surroundings) (d : Directory) :
    (∃ answer, Answers args g d answer) ∨ ∃ n, (run args g d).1 = .silent n := by
  cases hplan : plan args g d with
  | error outcome =>
    obtain ⟨n, rfl⟩ := plan_error_silent hplan
    exact .inr ⟨n, by simp [run, hplan]⟩
  | ok planned =>
    obtain ⟨c, l⟩ := planned
    cases hopen : d.open? l with
    | none => exact .inr ⟨1, by simp [run, runAt, hplan, hopen]⟩
    | some o =>
      cases hwritable : o.writable with
      | true => exact .inl ⟨_, .writable hplan hopen hwritable⟩
      | false =>
        cases hrecorded : o.store.recorded with
        | true => exact .inl ⟨_, .readOnly hplan hopen hwritable hrecorded⟩
        | false =>
          exact .inr ⟨1, by simp [run, runAt, runOn, hplan, hopen, hwritable, hrecorded]⟩

/-- The command of the run fails. -/
def Fails (args : List String) (g : Surroundings) (d : Directory) (f : Failure) : Prop :=
  Answers args g d (.error (.failure f))

theorem Fails.outcome_eq {f : Failure} (h : Fails args g d f) :
    (run args g d).1 = ⟨1, none, some f.errorLine⟩ := Answers.outcome_eq h

theorem error_eq_some_iff {line : String} : (run args g d).1.error = some line ↔
    ∃ f, Fails args g d f ∧ line = f.errorLine := by
  constructor
  · intro hline
    rcases answers_or_silent args g d with ⟨answer, hanswer⟩ | ⟨n, hsilent⟩
    · rw [hanswer.outcome_eq] at hline
      rcases answer with (f | _) | a
      · cases hline
        exact ⟨f, hanswer, rfl⟩
      · cases hline
      · cases hline
    · rw [hsilent] at hline
      cases hline
  · rintro ⟨f, hf, rfl⟩
    rw [hf.outcome_eq]

/-- The line of a failure is one document of its code and, unless it is internal, of its
message. Runs report such a line exactly when their command fails, with status 1 and no
answer. So any two runs that fail internally come to the same outcome. -/
theorem internal_failures_alike :
    (∀ f : Failure, f.code = .internal ↔
      (∃ reason, f = .invalidId reason ∨ f = .corruptRow reason ∨ f = .compensation reason) ∨
        (∃ cause, f = .rollbackFailed cause) ∨ ∃ fault, f = .database fault) ∧
    (∀ f : Failure, Reports f.errorLine f.code.text
      (if f.code = .internal then "internal error" else f.message)) ∧
    (∀ args g d line, (run args g d).1.error = some line ↔
      ∃ f, Fails args g d f ∧ line = f.errorLine) ∧
    (∀ args g d f, Fails args g d f → (run args g d).1 = ⟨1, none, some f.errorLine⟩) ∧
    ∀ args g d f args' g' d' f', Fails args g d f → Fails args' g' d' f' →
      f.code = .internal → f'.code = .internal → (run args g d).1 = (run args' g' d').1 := by
  refine ⟨fun _ => Failure.code_eq_internal_iff, Failure.reports_errorLine,
    fun _ _ _ _ => error_eq_some_iff, fun _ _ _ _ h => h.outcome_eq, ?_⟩
  intro args g d f args' g' d' f' h h' hf hf'
  rw [h.outcome_eq, h'.outcome_eq, Failure.errorLine_of_internal hf,
    Failure.errorLine_of_internal hf']

/-- Alice's gift has a blank currency. -/
def giftStore : Store :=
  ⟨some [], some [⟨(Id.minted 1).toText, 1, "gift", 2, "\t"⟩],
    some [⟨"s", (Id.minted 1).toText, 2, "alice"⟩], true⟩

def showGift : List String :=
  ["--database-url", "sqlite:a.db", "expenses", "show", "alice",
    "00000000-0000-4000-8000-000000000001"]

def askBob : List String :=
  ["--database-url", "sqlite:b.db?mode=ro", "friends", "send", "alice", "bob"]

/-- A row that cannot be read and a store that cannot be written are told alike. -/
theorem gift_and_request_alike :
    let g : Surroundings := ⟨[], 1, 0⟩
    let gifts : Directory := [("a.db", .database giftStore)]
    let locked : Directory := [("b.db", .database .fresh)]
    Fails showGift g gifts (.corruptRow "invalid stored currency \"\\t\"") ∧
    Fails askBob g locked (.database .readOnly) ∧
    (run showGift g gifts).1 = (run askBob g locked).1 := by
  intro g gifts locked
  have hshow : Fails showGift g gifts (.corruptRow "invalid stored currency \"\\t\"") := by
    have hplan : plan showGift g gifts =
        .ok (.expense "alice" (Id.minted 1), .file "a.db" .readWrite false) := by decide +kernel
    have hopen : gifts.open? (.file "a.db" .readWrite false) =
        some ⟨giftStore, true, some "a.db", gifts⟩ := by decide +kernel
    have hanswer : (execute (.expense "alice" (Id.minted 1)) g giftStore).1 =
        .error (.failure (.corruptRow "invalid stored currency \"\\t\"")) := by decide +kernel
    have hanswers := Answers.writable hplan hopen rfl
    rwa [hanswer] at hanswers
  have hask : Fails askBob g locked (.database .readOnly) := by
    have hplan : plan askBob g locked =
        .ok (.request (.send "alice" "bob"), .file "b.db" .readOnly false) := by decide +kernel
    have hopen : locked.open? (.file "b.db" .readOnly false) =
        some ⟨.fresh, false, some "b.db", locked⟩ := by decide +kernel
    have hanswer : readOnlyAnswer (.request (.send "alice" "bob"))
        (execute (.request (.send "alice" "bob")) g .fresh).1 =
        .error (.failure (.database .readOnly)) := by decide +kernel
    have hanswers := Answers.readOnly hplan hopen rfl rfl
    rwa [hanswer] at hanswers
  obtain ⟨-, -, -, -, halike⟩ := internal_failures_alike
  exact ⟨hshow, hask, halike _ _ _ _ _ _ _ _ hshow hask rfl rfl⟩

end Program
end FriendLedger
