import FriendLedger.CommandLine.Command
import FriendLedger.Proofs.Text.Typed

/-! Shares as they are typed, `user=cost`. A text is read as a share exactly when it is cut
by its first equals sign into a user and a numeral in range, with blanks around either. So
every user that a typed share can name is read back, with any amount. -/

namespace FriendLedger.Share

set_option autoImplicit false

/-- The texts that stand for a share. -/
def Typed (raw : String) (share : Share) : Prop :=
  ∃ before after numeral, raw.toList = before ++ '=' :: after ∧ '=' ∉ before ∧
    Text.TrimsTo before share.counterparty.toList ∧ share.counterparty ≠ "" ∧
    Text.TrimsTo after numeral ∧ Text.Numeral numeral share.signedCost.toInt

/-- A user whom a typed share can name. -/
structure Nameable (user : String) : Prop where
  ne_empty : user ≠ ""
  no_equals : '=' ∉ user.toList
  trimmed : Text.Trimmed user.toList

theorem ofChars?_append {before after : List Char} (h : '=' ∉ before) :
    ofChars? (before ++ '=' :: after) =
      if Text.trim before = [] then none
      else (Amount.ofChars? (Text.trim after)).map
        fun cost => ⟨String.ofList (Text.trim before), cost⟩ := by
  simp only [ofChars?, Text.dropWhile_ne_append h, Text.takeWhile_ne_append h]

theorem ofChars?_eq_none {cs : List Char} (h : '=' ∉ cs) : ofChars? cs = none := by
  simp only [ofChars?, Text.dropWhile_ne_eq_nil_iff.mpr h]

theorem ofText?_eq_some_iff {raw : String} {share : Share} :
    ofText? raw = some share ↔ Typed raw share := by
  constructor
  · intro h
    by_cases heq : '=' ∈ raw.toList
    · obtain ⟨before, after, hraw, hbefore⟩ := List.eq_append_cons_of_mem heq
      rw [ofText?, hraw, ofChars?_append hbefore] at h
      split at h
      · cases h
      · rename_i huser
        obtain ⟨cost, hcost, rfl⟩ := Option.map_eq_some_iff.mp h
        refine ⟨before, after, _, hraw, hbefore, ?_, ?_, Text.trim_eq_iff.mp rfl,
          Amount.ofChars?_eq_some_iff.mp hcost⟩
        · rw [String.toList_ofList]
          exact Text.trim_eq_iff.mp rfl
        · rwa [ne_eq, ← String.toList_eq_nil_iff, String.toList_ofList]
    · rw [ofText?, ofChars?_eq_none heq] at h
      cases h
  · rintro ⟨before, after, numeral, hraw, hbefore, huser, hne, hnumeral, hcost⟩
    rw [ne_eq, ← String.toList_eq_nil_iff] at hne
    rw [ofText?, hraw, ofChars?_append hbefore, Text.trim_eq_iff.mpr huser, if_neg hne,
      Text.trim_eq_iff.mpr hnumeral, Amount.ofChars?_eq_some_iff.mpr hcost, Option.map_some,
      String.ofList_toList]

theorem Typed.nameable {raw : String} {share : Share} (h : Typed raw share) :
    Nameable share.counterparty := by
  obtain ⟨before, after, numeral, -, hbefore, ⟨left, right, hcut, -, -, htrim⟩, hne, -⟩ := h
  refine ⟨hne, fun hmem => hbefore ?_, htrim⟩
  rw [hcut]
  exact List.mem_append_left _ (List.mem_append_right _ hmem)

theorem typed_of_nameable {user : String} (h : Nameable user) (cost : Amount) :
    Typed (user ++ "=" ++ String.ofList cost.toChars) ⟨user, cost⟩ := by
  have hcost := Amount.ofChars?_eq_some_iff.mp (Amount.ofChars?_toChars cost)
  refine ⟨user.toList, cost.toChars, cost.toChars, ?_, h.no_equals, ?_, h.ne_empty,
    hcost.trimsTo, hcost⟩
  · simp [String.toList_append]
  · exact Text.trim_eq_iff.mp (Text.trim_of_trimmed h.trimmed)

/-- Reading accepts the typed shares and no other text. -/
theorem read_exactly_typed (raw : String) :
    (∀ share, ofText? raw = some share ↔ Typed raw share) ∧
    (∀ share, ofText? raw = some share → Nameable share.counterparty) ∧
    ∀ (user : String) (cost : Amount), Nameable user →
      ofText? (user ++ "=" ++ String.ofList cost.toChars) = some ⟨user, cost⟩ :=
  ⟨fun _ => ofText?_eq_some_iff, fun _ h => (ofText?_eq_some_iff.mp h).nameable,
    fun _ cost h => ofText?_eq_some_iff.mpr (typed_of_nameable h cost)⟩

/-- Blanks of several kinds, zeros before the digits and a user whose name has a blank inside. -/
theorem read_spaced_typed :
    ofText? "\u3000ann lee =\t-0042\u2028" = some ⟨"ann lee", -42⟩ ∧ Nameable "ann lee" ∧
      ofText? ("ann lee" ++ "=" ++ String.ofList (Amount.toChars Int64.minValue)) =
        some ⟨"ann lee", Int64.minValue⟩ := by
  obtain ⟨hgrammar, hnameable, -⟩ := read_exactly_typed "\u3000ann lee =\t-0042\u2028"
  have hread : ofText? "\u3000ann lee =\t-0042\u2028" = some ⟨"ann lee", -42⟩ := by
    refine (hgrammar ⟨"ann lee", -42⟩).mpr ⟨"\u3000ann lee ".toList, "\t-0042\u2028".toList,
      "-0042".toList, by decide, by decide, ?_, by decide, ?_,
      Text.readInt?_eq_some_iff.mp (by decide)⟩
    · exact ⟨['\u3000'], [' '], by decide, List.forall_mem_singleton.mpr (by decide),
        List.forall_mem_singleton.mpr (by decide), by decide⟩
    · exact ⟨['\t'], ['\u2028'], by decide, List.forall_mem_singleton.mpr (by decide),
        List.forall_mem_singleton.mpr (by decide), by decide⟩
  have huser := hnameable _ hread
  exact ⟨hread, huser, (read_exactly_typed "").2.2 "ann lee" Int64.minValue huser⟩

end FriendLedger.Share
