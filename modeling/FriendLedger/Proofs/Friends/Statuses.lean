import FriendLedger.Proofs.Friends.Requests

/-! What one user sees of the others. The statuses, the three sets of users and the
questions about a single pair are read in ways of their own, and all of them tell the
same from the edges between two users. -/

namespace FriendLedger

set_option autoImplicit false

/-- A roster is determined by the names it holds. -/
theorem Roster.ofList_congr {xs ys : List String} (h : ∀ z, z ∈ xs ↔ z ∈ ys) :
    ofList xs = ofList ys := by
  have hperm : (ofList xs).Perm (ofList ys) := by
    rw [List.perm_ext_iff_of_nodup (nodup_ofList xs) (nodup_ofList ys)]
    intro z
    rw [mem_ofList_iff, mem_ofList_iff, h z]
  apply List.Perm.eq_of_pairwise _ (pairwise_ofList xs) (pairwise_ofList ys) hperm
  intro a b _ _ hab hba
  exact absurd (String.lt_trans hab hba) (String.lt_irrefl a)

namespace Friends
variable {s : Store} {subject user c : String} {rows : List Edge} {others candidates : List String}

/-- The status that the two edges between the users stand for. -/
def statusIn (rows : List Edge) (subject candidate : String) : Status :=
  if candidate = subject then .self
  else Status.ofEdges (decide (⟨subject, candidate⟩ ∈ rows)) (decide (⟨candidate, subject⟩ ∈ rows))

theorem statusIn_congr {rows rows' : List Edge} {u v : String} (h : ⟨u, v⟩ ∈ rows ↔ ⟨u, v⟩ ∈ rows')
    (h' : ⟨v, u⟩ ∈ rows ↔ ⟨v, u⟩ ∈ rows') : statusIn rows u v = statusIn rows' u v := by
  simp [statusIn, h, h']

/-! ### One reading for all candidates -/

theorem mem_edgesAmong_iff {e : Edge} : e ∈ edgesAmong rows subject others ↔ e ∈ rows ∧
    (e.sender = subject ∧ e.target ∈ others ∨ e.target = subject ∧ e.sender ∈ others) := by
  simp [edgesAmong]

/-- The sender alone tells whether an edge goes out or comes in, since the subject is
not among the others. -/
theorem statusAmong_edgesAmong (hsubject : subject ∉ others) (hc : c = subject ∨ c ∈ others) :
    statusAmong (edgesAmong rows subject others) subject c = statusIn rows subject c := by
  unfold statusAmong statusIn
  split
  · rfl
  · rename_i hne
    have hmem : c ∈ others := hc.resolve_left hne
    have hout : c ∈ ((edgesAmong rows subject others).filter (·.sender = subject)).map (·.target) ↔
        ⟨subject, c⟩ ∈ rows := by
      rw [List.mem_map]
      constructor
      · rintro ⟨⟨sender, target⟩, he, rfl⟩
        obtain ⟨he, hsender⟩ := List.mem_filter.mp he
        cases of_decide_eq_true hsender
        exact (mem_edgesAmong_iff.mp he).1
      · intro he
        refine ⟨⟨subject, c⟩, List.mem_filter.mpr ⟨?_, decide_eq_true rfl⟩, rfl⟩
        exact mem_edgesAmong_iff.mpr ⟨he, .inl ⟨rfl, hmem⟩⟩
    have hin : c ∈ ((edgesAmong rows subject others).filter (·.sender ≠ subject)).map (·.sender) ↔
        ⟨c, subject⟩ ∈ rows := by
      rw [List.mem_map]
      constructor
      · rintro ⟨⟨sender, target⟩, he, rfl⟩
        obtain ⟨he, hsender⟩ := List.mem_filter.mp he
        obtain ⟨hrow, hout | ⟨htarget, -⟩⟩ := mem_edgesAmong_iff.mp he
        · exact absurd hout.1 (of_decide_eq_true hsender)
        · cases htarget
          exact hrow
      · intro he
        refine ⟨⟨c, subject⟩, List.mem_filter.mpr ⟨?_, decide_eq_true hne⟩, rfl⟩
        exact mem_edgesAmong_iff.mpr ⟨he, .inr ⟨rfl, hmem⟩⟩
    dsimp only
    rw [decide_eq_decide.mpr hout, decide_eq_decide.mpr hin]

theorem statusesOf_eq (hc : s.Complete) (subject : String) (candidates : List String) :
    statusesOf s subject candidates =
      .ok ((Roster.ofList candidates).map fun user => (user, statusIn s.heldEdges subject user)) := by
  unfold statusesOf
  simp only [hc.edgeRows_eq, orDatabase]
  generalize hothers : (Roster.ofList candidates).filter (· ≠ subject) = others
  have hsubject : subject ∉ others := by
    rw [← hothers]
    intro hmem
    simpa using (List.mem_filter.mp hmem).2
  have hmem (user : String) (huser : user ∈ Roster.ofList candidates) :
      user = subject ∨ user ∈ others := by
    by_cases heq : user = subject
    · exact .inl heq
    · rw [← hothers]
      exact .inr (List.mem_filter.mpr ⟨huser, decide_eq_true heq⟩)
  by_cases hempty : others.isEmpty = true
  · rw [if_pos hempty]
    have hnil : others = [] := List.isEmpty_iff.mp hempty
    simp only [pure_eq_ok, ok_bind, Except.ok.injEq]
    apply List.map_congr_left
    intro user huser
    have hself : user = subject := by
      rcases hmem user huser with heq | hother
      · exact heq
      · rw [hnil] at hother
        cases hother
    rw [hself]
    simp [statusAmong, statusIn]
  · rw [if_neg hempty]
    simp only [pure_eq_ok, ok_bind, Except.ok.injEq]
    apply List.map_congr_left
    intro user huser
    rw [statusAmong_edgesAmong hsubject (hmem user huser)]

/-! ### The three sets -/

theorem mem_targets_iff {P : Edge → Bool} :
    c ∈ Roster.ofList ((rows.filter fun e => e.sender = user && P e).map (·.target)) ↔
      ⟨user, c⟩ ∈ rows ∧ P ⟨user, c⟩ = true := by
  rw [Roster.mem_ofList_iff, List.mem_map]
  constructor
  · rintro ⟨⟨sender, target⟩, he, rfl⟩
    obtain ⟨he, hsender, hP⟩ : _ ∧ sender = user ∧ _ := by simpa using he
    cases hsender
    exact ⟨he, hP⟩
  · rintro ⟨he, hP⟩
    exact ⟨⟨user, c⟩, by simpa using ⟨he, hP⟩, rfl⟩

theorem mem_senders_iff {P : Edge → Bool} :
    c ∈ Roster.ofList ((rows.filter fun e => e.target = user && P e).map (·.sender)) ↔
      ⟨c, user⟩ ∈ rows ∧ P ⟨c, user⟩ = true := by
  rw [Roster.mem_ofList_iff, List.mem_map]
  constructor
  · rintro ⟨⟨sender, target⟩, he, rfl⟩
    obtain ⟨he, htarget, hP⟩ : _ ∧ target = user ∧ _ := by simpa using he
    cases htarget
    exact ⟨he, hP⟩
  · rintro ⟨he, hP⟩
    exact ⟨⟨c, user⟩, by simpa using ⟨he, hP⟩, rfl⟩

section Sets
variable (hc : s.Complete) (user : String)
include hc

theorem friendsOf_eq_ok : ∃ users, friendsOf s user = .ok users ∧
    ∀ c, c ∈ users ↔ ⟨user, c⟩ ∈ s.heldEdges ∧ ⟨c, user⟩ ∈ s.heldEdges := by
  simp only [friendsOf, hc.edgeRows_eq, orDatabase, ok_bind]
  refine ⟨_, rfl, ?_⟩
  intro c
  rw [mem_targets_iff, decide_eq_true_eq]
  rfl

theorem subscribersOf_eq_ok : ∃ users, subscribersOf s user = .ok users ∧
    ∀ c, c ∈ users ↔ ⟨c, user⟩ ∈ s.heldEdges ∧ ⟨user, c⟩ ∉ s.heldEdges := by
  simp only [subscribersOf, hc.edgeRows_eq, orDatabase, ok_bind]
  refine ⟨_, rfl, ?_⟩
  intro c
  rw [mem_senders_iff, decide_eq_true_eq]
  rfl

theorem subscriptionsOf_eq_ok : ∃ users, subscriptionsOf s user = .ok users ∧
    ∀ c, c ∈ users ↔ ⟨user, c⟩ ∈ s.heldEdges ∧ ⟨c, user⟩ ∉ s.heldEdges := by
  simp only [subscriptionsOf, hc.edgeRows_eq, orDatabase, ok_bind]
  refine ⟨_, rfl, ?_⟩
  intro c
  rw [mem_targets_iff, decide_eq_true_eq]
  rfl

end Sets

/-! ### Agreement -/

theorem statusIn_self : statusIn rows subject subject = .self := if_pos rfl

/-- Which of the three sets a status other than `self` stands for. -/
theorem statusIn_eq_iff (hne : c ≠ subject) :
    (statusIn rows subject c = .mutual ↔ ⟨subject, c⟩ ∈ rows ∧ ⟨c, subject⟩ ∈ rows) ∧
      (statusIn rows subject c = .requestedOfMe ↔ ⟨c, subject⟩ ∈ rows ∧ ⟨subject, c⟩ ∉ rows) ∧
      (statusIn rows subject c = .requestedByMe ↔ ⟨subject, c⟩ ∈ rows ∧ ⟨c, subject⟩ ∉ rows) ∧
      (statusIn rows subject c = .none ↔ ⟨subject, c⟩ ∉ rows ∧ ⟨c, subject⟩ ∉ rows) := by
  unfold statusIn
  rw [if_neg hne]
  by_cases hout : ⟨subject, c⟩ ∈ rows
  · by_cases hin : ⟨c, subject⟩ ∈ rows
    · simp [hout, hin, Status.ofEdges]
    · simp [hout, hin, Status.ofEdges]
  · by_cases hin : ⟨c, subject⟩ ∈ rows
    · simp [hout, hin, Status.ofEdges]
    · simp [hout, hin, Status.ofEdges]

/-- The subject himself has a status that no set stands for. -/
theorem statusIn_eq_iff_mem {status : Status} {users : List String} (hstatus : status ≠ .self)
    (hsubject : subject ∉ users)
    (h : c ≠ subject → (statusIn rows subject c = status ↔ c ∈ users)) :
    statusIn rows subject c = status ↔ c ∈ users := by
  by_cases heq : c = subject
  · rw [heq, statusIn_self]
    exact iff_of_false hstatus.symm hsubject
  · exact h heq

/-- The sets of users that one user sees. -/
structure Circle where
  friends : List String
  subscribers : List String
  subscriptions : List String

/-- The three sets are read as told. -/
structure Circle.IsRead (m : Circle) (s : Store) (user : String) : Prop where
  friends : friendsOf s user = .ok m.friends
  subscribers : subscribersOf s user = .ok m.subscribers
  subscriptions : subscriptionsOf s user = .ok m.subscriptions

/-- The statuses of the candidates say what the sets and the questions about single pairs
say, and the sets have nobody in common. -/
structure Agree (s : Store) (subject : String) (candidates : List String)
    (statuses : List (String × Status)) (m : Circle) : Prop where
  nodup : (statuses.map (·.1)).Nodup
  keys : ∀ c, c ∈ statuses.map (·.1) ↔ c ∈ candidates
  own : ∀ status, (subject, status) ∈ statuses → status = .self
  pair : ∀ c status, (c, status) ∈ statuses → c ≠ subject → ∃ outgoing incoming,
    edgePair s subject c = .ok (outgoing, incoming) ∧ status = Status.ofEdges outgoing incoming
  friends : ∀ c status, (c, status) ∈ statuses → (status = .mutual ↔ c ∈ m.friends)
  subscribers : ∀ c status, (c, status) ∈ statuses → (status = .requestedOfMe ↔ c ∈ m.subscribers)
  subscriptions : ∀ c status, (c, status) ∈ statuses →
    (status = .requestedByMe ↔ c ∈ m.subscriptions)
  nobody : ∀ c status, (c, status) ∈ statuses → c ≠ subject →
    (status = .none ↔ c ∉ m.friends ∧ c ∉ m.subscribers ∧ c ∉ m.subscriptions)
  asked : ∀ c, hasPendingRequest s c subject = .ok (decide (c ∈ m.subscribers))
  asking : ∀ c, hasPendingRequest s subject c = .ok (decide (c ∈ m.subscriptions))
  disjoint : m.friends.Disjoint m.subscribers ∧ m.friends.Disjoint m.subscriptions ∧
    m.subscribers.Disjoint m.subscriptions
  outside : subject ∉ m.friends ∧ subject ∉ m.subscribers ∧ subject ∉ m.subscriptions

/-- Who is in the sets, told by the edges. -/
structure Circle.FollowsEdges (m : Circle) (rows : List Edge) (user : String) : Prop where
  friends : ∀ c, c ∈ m.friends ↔ ⟨user, c⟩ ∈ rows ∧ ⟨c, user⟩ ∈ rows
  subscribers : ∀ c, c ∈ m.subscribers ↔ ⟨c, user⟩ ∈ rows ∧ ⟨user, c⟩ ∉ rows
  subscriptions : ∀ c, c ∈ m.subscriptions ↔ ⟨user, c⟩ ∈ rows ∧ ⟨c, user⟩ ∉ rows

theorem exists_circle (hc : s.Complete) (user : String) :
    ∃ m : Circle, m.IsRead s user ∧ m.FollowsEdges s.heldEdges user := by
  obtain ⟨friends, hfriends, hmutual⟩ := friendsOf_eq_ok hc user
  obtain ⟨subscribers, hsubscribers, hin⟩ := subscribersOf_eq_ok hc user
  obtain ⟨subscriptions, hsubscriptions, hout⟩ := subscriptionsOf_eq_ok hc user
  exact ⟨⟨friends, subscribers, subscriptions⟩, ⟨hfriends, hsubscribers, hsubscriptions⟩,
    ⟨hmutual, hin, hout⟩⟩

namespace Circle.FollowsEdges
variable {m m' : Circle}

theorem disjoint (h : m.FollowsEdges rows user) : m.friends.Disjoint m.subscribers ∧
    m.friends.Disjoint m.subscriptions ∧ m.subscribers.Disjoint m.subscriptions := by
  refine ⟨?_, ?_, ?_⟩
  · intro c hfriend hsubscriber
    exact ((h.subscribers c).mp hsubscriber).2 ((h.friends c).mp hfriend).1
  · intro c hfriend hsubscription
    exact ((h.subscriptions c).mp hsubscription).2 ((h.friends c).mp hfriend).2
  · intro c hsubscriber hsubscription
    exact ((h.subscribers c).mp hsubscriber).2 ((h.subscriptions c).mp hsubscription).1

/-- Only an edge to himself would make a user one of those whom he sees. -/
theorem not_mem (h : m.FollowsEdges rows user) (hself : ⟨user, user⟩ ∉ rows) :
    user ∉ m.friends ∧ user ∉ m.subscribers ∧ user ∉ m.subscriptions := by
  rw [h.friends, h.subscribers, h.subscriptions]
  exact ⟨fun hmem => hself hmem.1, fun hmem => hself hmem.1, fun hmem => hself hmem.1⟩

/-- What one user sees of the other, turned around. -/
theorem mirror (h : m.FollowsEdges rows user) (h' : m'.FollowsEdges rows c) :
    (c ∈ m.friends ↔ user ∈ m'.friends) ∧ (c ∈ m.subscribers ↔ user ∈ m'.subscriptions) ∧
      (c ∈ m.subscriptions ↔ user ∈ m'.subscribers) := by
  rw [h.friends, h.subscribers, h.subscriptions, h'.friends, h'.subscribers, h'.subscriptions]
  exact ⟨and_comm, Iff.rfl, Iff.rfl⟩

theorem agree (h : m.FollowsEdges s.heldEdges subject) (hc : s.Complete)
    (hself : ⟨subject, subject⟩ ∉ s.heldEdges) (candidates : List String) :
    Agree s subject candidates ((Roster.ofList candidates).map fun c =>
      (c, statusIn s.heldEdges subject c)) m := by
  have hkeys : ((Roster.ofList candidates).map fun c =>
      (c, statusIn s.heldEdges subject c)).map (·.1) = Roster.ofList candidates := by
    rw [List.map_map]
    exact List.map_id _
  have hstatus {c : String} {status : Status} (hmem : (c, status) ∈ (Roster.ofList candidates).map
      fun c => (c, statusIn s.heldEdges subject c)) :
      status = statusIn s.heldEdges subject c := by
    obtain ⟨c, -, heq⟩ := List.mem_map.mp hmem
    cases heq
    rfl
  obtain ⟨hfriend, hsubscriber, hsubscription⟩ := h.not_mem hself
  refine ⟨?_, ?_, ?_, ?_, ?_, ?_, ?_, ?_, ?_, ?_, h.disjoint, hfriend, hsubscriber, hsubscription⟩
  · rw [hkeys]
    exact Roster.nodup_ofList candidates
  · intro c
    rw [hkeys]
    exact Roster.mem_ofList_iff c candidates
  · intro status hmem
    rw [hstatus hmem, statusIn_self]
  · intro c status hmem hne
    refine ⟨_, _, Request.edgePair_eq hc subject c, ?_⟩
    rw [hstatus hmem, statusIn, if_neg hne]
  · intro c status hmem
    rw [hstatus hmem]
    apply statusIn_eq_iff_mem Status.noConfusion hfriend
    intro hne
    rw [h.friends]
    exact (statusIn_eq_iff hne).1
  · intro c status hmem
    rw [hstatus hmem]
    apply statusIn_eq_iff_mem Status.noConfusion hsubscriber
    intro hne
    rw [h.subscribers]
    exact (statusIn_eq_iff hne).2.1
  · intro c status hmem
    rw [hstatus hmem]
    apply statusIn_eq_iff_mem Status.noConfusion hsubscription
    intro hne
    rw [h.subscriptions]
    exact (statusIn_eq_iff hne).2.2.1
  · intro c status hmem hne
    rw [hstatus hmem, (statusIn_eq_iff hne).2.2.2, h.friends, h.subscribers, h.subscriptions]
    tauto
  · intro c
    rw [Request.hasPendingRequest_eq hc]
    exact congrArg Except.ok (decide_eq_decide.mpr (h.subscribers c).symm)
  · intro c
    rw [Request.hasPendingRequest_eq hc]
    exact congrArg Except.ok (decide_eq_decide.mpr (h.subscriptions c).symm)

end Circle.FollowsEdges

/-- All that is read of a relationship agrees: the statuses of any candidates, whatever
their order and however often each is named, with the sets of the subject and with the
questions about single pairs; and the sets of two users with each other. -/
theorem read_paths_agree (hc : s.Complete) (hself : ⟨subject, subject⟩ ∉ s.heldEdges)
    (candidates : List String) : ∃ statuses, ∃ m : Circle,
      statusesOf s subject candidates = .ok statuses ∧ m.IsRead s subject ∧
      Agree s subject candidates statuses m ∧
      (∀ candidates', (∀ c, c ∈ candidates' ↔ c ∈ candidates) →
        statusesOf s subject candidates' = .ok statuses) ∧
      ∀ c, ∃ m' : Circle, m'.IsRead s c ∧ (c ∈ m.friends ↔ subject ∈ m'.friends) ∧
        (c ∈ m.subscribers ↔ subject ∈ m'.subscriptions) ∧
        (c ∈ m.subscriptions ↔ subject ∈ m'.subscribers) := by
  obtain ⟨m, hread, hm⟩ := exists_circle hc subject
  refine ⟨_, m, statusesOf_eq hc subject candidates, hread, hm.agree hc hself candidates, ?_, ?_⟩
  · intro candidates' hsame
    rw [statusesOf_eq hc, Roster.ofList_congr hsame]
  · intro c
    obtain ⟨m', hread', hm'⟩ := exists_circle hc c
    exact ⟨m', hread', hm.mirror hm'⟩

/-- Alice and bob are friends, carol waits for alice, alice waits for dave, and dave
asked himself. -/
def acquaintances : Store :=
  { Store.fresh with
    edges := some [⟨"alice", "bob"⟩, ⟨"carol", "alice"⟩, ⟨"bob", "alice"⟩, ⟨"alice", "dave"⟩,
      ⟨"dave", "dave"⟩] }

theorem read_paths_agree_for_alice :
    acquaintances.Complete ∧ ⟨"alice", "alice"⟩ ∉ acquaintances.heldEdges ∧
      ∃ m : Circle, m.IsRead acquaintances "alice" ∧ Agree acquaintances "alice"
        ["dave", "alice", "carol", "bob", "dave", "erin"] [("alice", .self), ("bob", .mutual),
          ("carol", .requestedOfMe), ("dave", .requestedByMe), ("erin", .none)] m := by
  have hc : acquaintances.Complete := ⟨rfl, rfl, rfl⟩
  have hself : ⟨"alice", "alice"⟩ ∉ acquaintances.heldEdges := by decide
  obtain ⟨statuses, m, hstatuses, hread, hagree, -⟩ :=
    read_paths_agree hc hself ["dave", "alice", "carol", "bob", "dave", "erin"]
  have hfound : statusesOf acquaintances "alice" ["dave", "alice", "carol", "bob", "dave", "erin"] =
      .ok [("alice", .self), ("bob", .mutual), ("carol", .requestedOfMe),
        ("dave", .requestedByMe), ("erin", .none)] := by decide +kernel
  cases hstatuses.symm.trans hfound
  exact ⟨hc, hself, m, hread, hagree⟩

end Friends
end FriendLedger
