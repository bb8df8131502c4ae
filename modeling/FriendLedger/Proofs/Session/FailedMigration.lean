import FriendLedger.Proofs.Session.SchemaCycle

/-! Migrations that fail. Setting up never does. Tearing down does when a table is missing,
and nothing takes back what it has done by then: the tables that come before the missing
one are gone. All other tables and the record of the schema are as they were. -/

namespace FriendLedger

set_option autoImplicit false

namespace Store

/-- The stores have the same table, with the same rows, or both have none. -/
def SameTable (s t : Store) : Table → Prop
  | .friendRequests => s.edges = t.edges
  | .deals => s.deals = t.deals
  | .spendings => s.spendings = t.spendings

variable {s : Store} {t : Table} {gone : List Table}

theorem sameTable_lacking (h : t ∉ gone) : s.SameTable (s.lacking gone) t := by
  cases t <;> exact (if_neg h).symm

theorem lacking_eq_self_iff (h : ∀ u ∈ gone, s.has u = true) : s.lacking gone = s ↔ gone = [] := by
  constructor
  · intro heq
    rw [List.eq_nil_iff_forall_not_mem]
    intro u hu
    have hgone : (s.lacking gone).has u = false := by simp [has_lacking, hu]
    rw [heq, h u hu] at hgone
    cases hgone
  · rintro rfl
    exact s.lacking_nil

/-- Spendings come first, so nothing is gone only if it is them that are missing. -/
theorem gone_eq_nil_iff {kept : List Table} (horder : dropOrder = gone ++ t :: kept)
    (hfound : ∀ u ∈ gone, s.has u = true) (hmissing : s.has t = false) :
    gone = [] ↔ s.has .spendings = false := by
  cases gone with
  | nil =>
    cases horder
    exact iff_of_true rfl hmissing
  | cons u gone =>
    cases (List.cons.inj horder).1
    simp [hfound .spendings List.mem_cons_self]

end Store

namespace Session

/-- Tearing down comes to the missing table `t`, after the tables `gone` and before `kept`. -/
structure Halted (s s' : Session) (refusal : Refusal) (gone : List Table) (t : Table)
    (kept : List Table) : Prop where
  order : [.spendings, .deals, .friendRequests] = gone ++ t :: kept
  missing : s.book.store.has t = false
  refusal : refusal = .stop (.failure (.database (.missingTable t.name)))
  found : ∀ u ∈ gone, s.book.store.has u = true
  dropped : ∀ u ∈ gone, s'.book.store.has u = false
  kept : ∀ u ∈ t :: kept, s.book.store.SameTable s'.book.store u
  recorded : s'.book.store.recorded = s.book.store.recorded
  /-- Journals, held operations, ids and the trace are not concerned. -/
  others : s' = s.withStore s'.book.store
  unchanged_iff : s' = s ↔ s.book.store.has .spendings = false

variable {s : Session}

theorem withStore_eq_self_iff {store : Store} : s.withStore store = s ↔ store = s.book.store := by
  constructor
  · intro h
    exact congrArg (·.book.store) h
  · rintro rfl
    rfl

theorem halted_withStore {gone kept : List Table} {t : Table}
    (horder : Store.dropOrder = gone ++ t :: kept) (hfound : ∀ u ∈ gone, s.book.store.has u = true)
    (hmissing : s.book.store.has t = false) :
    s.Halted (s.withStore (s.book.store.lacking gone))
      (.stop (.failure (.database (.missingTable t.name)))) gone t kept where
  order := horder
  missing := hmissing
  refusal := rfl
  found := hfound
  dropped u hu := by
    change (s.book.store.lacking gone).has u = false
    simp [Store.has_lacking, hu]
  kept u hu := by
    have hnodup : (gone ++ t :: kept).Nodup := by
      rw [← horder]
      decide
    exact Store.sameTable_lacking fun hgone => (List.disjoint_of_nodup_append hnodup) hgone hu
  recorded := rfl
  others := rfl
  unchanged_iff := by
    rw [withStore_eq_self_iff, Store.lacking_eq_self_iff hfound]
    exact Store.gone_eq_nil_iff horder hfound hmissing

/-- Tearing down a recorded schema fails exactly when some table is missing. -/
theorem step_down_cases (hrecorded : s.book.store.recorded = true) (now : Amount) :
    ((s.step now (.migrate .down)).1 = .ok .done ∧ ∀ t, s.book.store.has t = true) ∨
    ∃ refusal gone t kept, (s.step now (.migrate .down)).1 = .error refusal ∧
      s.Halted (s.step now (.migrate .down)).2 refusal gone t kept := by
  simp only [step, Store.migrate]
  rcases Store.tearDown_cases hrecorded with
    ⟨hdown, hall⟩ | ⟨gone, t, kept, horder, hfound, hmissing, hdown⟩
  · rw [hdown]
    exact .inl ⟨rfl, hall⟩
  · rw [hdown]
    exact .inr ⟨_, gone, t, kept, rfl, halted_withStore horder hfound hmissing⟩

/-- Only the tearing down of a recorded schema of which a table is missing fails. Then the
tables before the first missing one in the order of spendings, deals and friend requests
are dropped. Every other table with all of its rows and the record of the schema are as
they were. -/
theorem failed_migration_halts (s : Session) (now : Amount) (direction : Store.Direction) :
    ((∃ refusal, (s.step now (.migrate direction)).1 = .error refusal) ↔
      direction = .down ∧ s.book.store.recorded = true ∧ ∃ t, s.book.store.has t = false) ∧
    ∀ refusal, (s.step now (.migrate direction)).1 = .error refusal → ∃ gone t kept,
      s.Halted (s.step now (.migrate direction)).2 refusal gone t kept := by
  cases direction with
  | up =>
    have hok : (s.step now (.migrate .up)).1 = .ok .done := rfl
    simp [hok]
  | down =>
    cases hrecorded : s.book.store.recorded with
    | false =>
      have hok : (s.step now (.migrate .down)).1 = .ok .done := by
        simp only [step, Store.migrate, Store.tearDown, hrecorded]
        rfl
      simp [hok]
    | true =>
      rcases step_down_cases hrecorded now with
        ⟨hok, hall⟩ | ⟨refusal, gone, t, kept, herror, hhalted⟩
      · simp [hok, hall]
      · rw [herror]
        refine ⟨⟨fun _ => ⟨rfl, rfl, t, hhalted.missing⟩, fun _ => ⟨refusal, rfl⟩⟩, ?_⟩
        rintro refusal' ⟨⟩
        exact ⟨gone, t, kept, hhalted⟩

/-- The spendings are gone, and the friend request stays. -/
theorem halted_at_deals :
    let s := fresh.after [(1, .insertEdge ⟨"alice", "bob"⟩), (2, .dropTable .deals)]
    let refusal := .stop (.failure (.database (.missingTable "deals")))
    (s.step 3 (.migrate .down)).1 = .error refusal ∧
    (∃ gone kept, s.Halted (s.step 3 (.migrate .down)).2 refusal gone .deals kept) ∧
    (s.step 3 (.migrate .down)).2.book.store = ⟨some [⟨"alice", "bob"⟩], none, none, true⟩ := by
  intro s refusal
  have herror : (s.step 3 (.migrate .down)).1 = .error refusal := by decide +kernel
  obtain ⟨gone, t, kept, h⟩ := (failed_migration_halts s 3 .down).2 refusal herror
  have ht : t = .deals := by
    have hrefusal := h.refusal
    cases t with
    | deals => rfl
    | _ => simp [refusal, Table.name] at hrefusal
  subst ht
  exact ⟨herror, ⟨gone, kept, h⟩, by decide +kernel⟩

/-- An expense is lost although the migration fails. -/
theorem deals_lost_in_failure :
    let s := fresh.after
      [(1, .insertDeal ⟨"d", 1, "dinner", 2, "EUR"⟩), (2, .dropTable .friendRequests)]
    (s.step 3 (.migrate .down)).1 =
      .error (.stop (.failure (.database (.missingTable "friend_requests")))) ∧
    s.book.store.deals = some [⟨"d", 1, "dinner", 2, "EUR"⟩] ∧
    (s.step 3 (.migrate .down)).2.book.store.deals = none := by
  decide +kernel

end Session
end FriendLedger
