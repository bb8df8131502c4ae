import FriendLedger.Proofs.Plain

/-! Failures compared. Two failures agree when they have the same outline, which is what
remains of a failure without its texts, and the same message. So agreement is an
equivalence, and failures that agree look the same to a caller. -/

namespace FriendLedger.Failure

set_option autoImplicit false

/-- The kind of a failure and of the causes in it, without what they say. -/
def outline : Failure → Failure
  | .noSuchRequest _ => .noSuchRequest ""
  | .alreadySent _ => .alreadySent ""
  | .hasIncomingRequest _ => .hasIncomingRequest ""
  | .notAFriend _ => .notAFriend ""
  | .invalidRequest _ => .invalidRequest ""
  | .expenseNotFound _ => .expenseNotFound ""
  | .notYourExpense _ => .notYourExpense ""
  | .invalidExpense _ => .invalidExpense ""
  | .invalidId _ => .invalidId ""
  | .corruptRow _ => .corruptRow ""
  | .compensation _ => .compensation ""
  | .rollbackFailed cause => .rollbackFailed cause.outline
  | .database _ => .database (.reported "")

theorem code_outline (f : Failure) : f.outline.code = f.code := by cases f <;> rfl

variable {a b c : Failure}

theorem outline_and_message_of_agrees (h : a.agrees b = true) :
    a.outline = b.outline ∧ a.message = b.message := by
  fun_induction agrees a b with
  | case12 a b ih =>
    obtain ⟨houtline, hmessage⟩ := ih h
    exact ⟨congrArg rollbackFailed houtline, congrArg ("Rollback failed: " ++ ·) hmessage⟩
  | case13 a b => exact ⟨rfl, beq_iff_eq.mp h⟩
  | case14 => cases h
  | _ =>
    cases beq_iff_eq.mp h
    exact ⟨rfl, rfl⟩

/-- A message is a text in a frame, and the frame depends on the outline alone. -/
theorem agrees_of_outline_of_message (houtline : a.outline = b.outline)
    (hmessage : a.message = b.message) : a.agrees b = true := by
  induction a generalizing b with
  | rollbackFailed a ih =>
    cases b with
    | rollbackFailed b =>
      exact ih (rollbackFailed.inj houtline) ((String.append_right_inj _).mp hmessage)
    | _ => cases houtline
  | expenseNotFound a =>
    cases b with
    | expenseNotFound b =>
      exact beq_iff_eq.mpr ((String.append_right_inj _).mp ((String.append_left_inj _).mp hmessage))
    | _ => cases houtline
  | database a =>
    cases b with
    | database b => exact beq_iff_eq.mpr hmessage
    | _ => cases houtline
  | _ =>
    -- outlines of different kinds differ, which leaves one kind in each case
    cases b <;> cases houtline
    exact beq_iff_eq.mpr ((String.append_right_inj _).mp hmessage)

theorem agrees_iff : a.agrees b = true ↔ a.outline = b.outline ∧ a.message = b.message :=
  ⟨outline_and_message_of_agrees, fun h => agrees_of_outline_of_message h.1 h.2⟩

theorem agrees_refl (a : Failure) : a.agrees a = true := agrees_iff.mpr ⟨rfl, rfl⟩

theorem agrees_symm (h : a.agrees b = true) : b.agrees a = true := by
  obtain ⟨houtline, hmessage⟩ := agrees_iff.mp h
  exact agrees_iff.mpr ⟨houtline.symm, hmessage.symm⟩

theorem agrees_trans (h : a.agrees b = true) (h' : b.agrees c = true) : a.agrees c = true := by
  obtain ⟨houtline, hmessage⟩ := agrees_iff.mp h
  obtain ⟨houtline', hmessage'⟩ := agrees_iff.mp h'
  exact agrees_iff.mpr ⟨houtline.trans houtline', hmessage.trans hmessage'⟩

/-! ### What callers see -/

/-- No caller can tell the failures apart. -/
structure SeenAs (a b : Failure) : Prop where
  code : a.code = b.code
  isInternal : a.isInternal = b.isInternal
  message : a.message = b.message

theorem seenAs_of_agrees (h : a.agrees b = true) : a.SeenAs b := by
  obtain ⟨houtline, hmessage⟩ := agrees_iff.mp h
  have hcode : a.code = b.code := by rw [← code_outline a, houtline, code_outline]
  exact ⟨hcode, by rw [isInternal, isInternal, hcode], hmessage⟩

/-! ### Failed reversals -/

theorem isRollback_inRollback (a : Failure) : a.inRollback.isRollback = true := by
  cases a <;> rfl

theorem inRollback_of_isRollback (h : a.isRollback = true) : a.inRollback = a := by
  cases a with
  | rollbackFailed cause => rfl
  | _ => cases h

theorem inRollback_of_not_isRollback (h : a.isRollback = false) :
    a.inRollback = .rollbackFailed a := by
  cases a with
  | rollbackFailed cause => cases h
  | _ => rfl

/-- Agreement is an equivalence, at any depth of causes, and callers see failures that
agree as one. A failure in a rollback is wrapped once, and wrapping neither tells apart
failures that agree nor makes others agree. -/
theorem agreement_refines_view :
    Equivalence (fun a b : Failure => a.agrees b = true) ∧
    (∀ a b : Failure, a.agrees b = true → a.SeenAs b) ∧
    (∀ a : Failure, a.inRollback.isRollback = true ∧
      a.inRollback.inRollback.agrees a.inRollback = true) ∧
    ∀ a b : Failure, a.isRollback = false → b.isRollback = false →
      (a.inRollback.agrees b.inRollback = true ↔ a.agrees b = true) := by
  refine ⟨⟨agrees_refl, agrees_symm, agrees_trans⟩, fun a b => seenAs_of_agrees, fun a => ?_,
    fun a b ha hb => ?_⟩
  · have hwrapped := isRollback_inRollback a
    rw [inRollback_of_isRollback hwrapped]
    exact ⟨hwrapped, agrees_refl _⟩
  · rw [inRollback_of_not_isRollback ha, inRollback_of_not_isRollback hb, agrees]

/-- What the store reports is one failure and that it was reported in a rollback another. -/
theorem agreement_of_gone :
    let gone : Failure := .database (.reported "gone")
    let misuse : Failure := .compensation "x"
    gone.inRollback.agrees gone.inRollback = true ∧ gone.inRollback.SeenAs gone.inRollback ∧
    gone.isRollback = false ∧ misuse.isRollback = false ∧
    (gone.inRollback.agrees misuse.inRollback = true ↔ gone.agrees misuse = true) ∧
    gone.inRollback.agrees gone = false := by
  intro gone misuse
  obtain ⟨hequivalence, hseen, -, hwrapping⟩ := agreement_refines_view
  have hgone := hequivalence.refl gone.inRollback
  exact ⟨hgone, hseen _ _ hgone, rfl, rfl, hwrapping gone misuse rfl rfl, rfl⟩

end FriendLedger.Failure
