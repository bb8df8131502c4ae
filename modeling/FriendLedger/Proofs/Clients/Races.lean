import FriendLedger.Proofs.Friends.Conflicts
import Mathlib.Logic.Function.Basic

/-! Two requests at the same time. Each of two clients looks at the edges first and writes
later, while nothing keeps the other one out in between. What comes of it is what comes of
the two requests one after the other, unless both are about the same two users and both
have looked before either writes. -/

namespace FriendLedger

set_option autoImplicit false

/-- How far a client has got with his request. -/
inductive Progress
  | waiting (r : Request)
  /-- The edges allow the request, which comes down to one write. -/
  | decided (op : Operation)
  | answered (answer : Except Failure Unit)
deriving DecidableEq

structure Client where
  progress : Progress
  journal : Journal

namespace Client

/-- The client after a look at the edges. -/
def afterLook (r : Request) (j : Journal) (s : Store) : Client :=
  match r.resolve s with
  | .ok op => ⟨.decided op, j⟩
  | .error f => ⟨.answered (.error f), j⟩

/-- The next access of the client to the store, if he has not been answered yet. -/
def turn (c : Client) (b : Book) : Client × Book :=
  match c.progress with
  | .waiting r => (afterLook r c.journal b.store, b)
  | .decided op =>
    let (answer, j, b) := c.journal.perform id op b
    (⟨.answered (answer.map fun _ => ()), j⟩, b)
  | .answered _ => (c, b)

/-- The whole call of a client who has not come to the store yet. -/
def call (c : Client) (b : Book) : Client × Book :=
  match c.progress with
  | .waiting r =>
    let (answer, j, b) := r.run c.journal b
    (⟨.answered answer, j⟩, b)
  | _ => (c, b)

variable {r : Request} {j : Journal} {b b' : Book}

/-- A call that nobody interrupts. -/
theorem turn_afterLook : (afterLook r j b.store).turn b = call ⟨.waiting r, j⟩ b := by
  cases hop : r.resolve b.store with
  | error f => simp only [afterLook, turn, call, Request.run, hop]
  | ok op =>
    simp only [afterLook, turn, call, Request.run, hop]
    cases j.perform id op b with
    | mk answer rest => cases answer <;> rfl

/-- A client who has been refused does not come to the store again. -/
theorem turn_of_refusal? {s : Store} (hc : s.Complete) {f : Failure} (h : r.refusal? s = some f) :
    (afterLook r j s).turn b = (afterLook r j s, b) := by
  simp only [afterLook, Request.resolve_eq hc, h, turn]

theorem call_of_refusal? (hc : b.store.Complete) {f : Failure} (h : r.refusal? b.store = some f) :
    call ⟨.waiting r, j⟩ b = (⟨.answered (.error f), j⟩, b) := by
  simp only [call, Request.run_of_refusal? hc h]

theorem call_of_refusal?_eq_none (hk : b.store.Keyed) (h : r.refusal? b.store = none) :
    call ⟨.waiting r, j⟩ b =
      (⟨.answered (.ok ()), j.record r.recorded⟩, { b with store := r.changed b.store }) := by
  simp only [call, Request.run_of_refusal?_eq_none hk h]

section Late
variable {s : Store} (hc : s.Complete) (h : r.refusal? s = none)
include hc h

/-- What has changed since the look makes no difference while the request stays allowed. -/
theorem turn_of_still_allowed (hc' : b.store.Complete) (h' : r.refusal? b.store = none) :
    (afterLook r j s).turn b = call ⟨.waiting r, j⟩ b := by
  rw [← turn_afterLook]
  simp only [afterLook, Request.resolve_eq hc, Request.resolve_eq hc', h, h']

theorem turn_of_taken (hc' : b.store.Complete) (hadds : r.adds = true)
    (hedge : r.edge ∈ b.store.heldEdges) :
    (afterLook r j s).turn b = (⟨.answered (.error (.alreadySent r.edge.text)), j⟩, b) := by
  have hperf : Reversible.perform r.operation b = _ :=
    Request.perform_operation_of_taken hc' hadds hedge
  simp only [afterLook, Request.resolve_eq hc, h, turn, Journal.perform, hperf, Except.map]

theorem turn_of_free (hc' : b.store.Complete) (hfree : r.adds = true → r.edge ∉ b.store.heldEdges) :
    ∃ j', (afterLook r j s).turn b =
      (⟨.answered (.ok ()), j'⟩, { b with store := r.changed b.store }) := by
  obtain ⟨op, hperf⟩ := Request.perform_operation_of_free hc' hfree
  have hreversible : Reversible.perform r.operation b = _ := hperf
  refine ⟨j.record op, ?_⟩
  simp only [afterLook, Request.resolve_eq hc, h, turn, Journal.perform, hreversible, Except.map,
    id]

end Late
end Client

/-! ### Schedules -/

inductive Party
  | one
  | two
deriving DecidableEq

namespace Party

def other : Party → Party
  | one => two
  | two => one

@[simp] theorem other_other (who : Party) : who.other.other = who := by cases who <;> rfl

@[simp] theorem other_ne (who : Party) : who.other ≠ who := by cases who <;> nofun

@[simp] theorem ne_other (who : Party) : who ≠ who.other := by cases who <;> nofun

theorem eq_or_eq_other (who first : Party) : who = first ∨ who = first.other := by
  cases who <;> cases first <;> simp [other]

/-- Two turns each: either one party has both before the other one, or both parties have
their first before either has the second. -/
theorem schedule_cases {turns : List Party} (h : turns.Perm [.one, .one, .two, .two]) :
    (∃ first, turns = [first, first, first.other, first.other]) ∨
      ∃ reader first, turns = [reader, reader.other, first, first.other] := by
  have hlength := h.length_eq
  have hone := h.count_eq .one
  match turns, hlength, hone with
  | [a, b, c, d], _, hone =>
    cases a <;> cases b <;> cases c <;> cases d <;> simp [other] at hone ⊢

end Party

structure Race where
  book : Book
  clients : Party → Client

namespace Race

/-- Lets one of the two clients act. -/
def act (race : Race) (action : Client → Book → Client × Book) (who : Party) : Race :=
  let (c, b) := action (race.clients who) race.book
  ⟨b, Function.update race.clients who c⟩

def turn (race : Race) (who : Party) : Race := race.act Client.turn who

def after (race : Race) (turns : List Party) : Race := turns.foldl turn race

/-- The two calls one after the other. -/
def serial (race : Race) (first : Party) : Race :=
  (race.act Client.call first).act Client.call first.other

def start (b : Book) (requests : Party → Request) (journals : Party → Journal) : Race :=
  ⟨b, fun who => ⟨.waiting (requests who), journals who⟩⟩

/-- The same store and the same answers. -/
def SameOutcome (race race' : Race) : Prop :=
  race.book.store = race'.book.store ∧
    ∀ who, (race.clients who).progress = (race'.clients who).progress

/-- Both have looked at the edges, and nothing has been written. -/
def looked (b : Book) (requests : Party → Request) (journals : Party → Journal) : Race :=
  ⟨b, fun who => .afterLook (requests who) (journals who) b.store⟩

/-- Both look at the edges between the same two users before either writes, and both are
allowed what they ask for. That both send the same request is no collision. -/
structure Collide (s : Store) (requests : Party → Request) (turns : List Party) : Prop where
  reads : ∀ who, who ∈ turns.take 2
  allowed : ∀ who, (requests who).refusal? s = none
  pair : ∀ who, (requests who).SamePair (requests who.other)
  differ : ∀ a b, ¬ ∀ who, requests who = .send a b

variable {race race' : Race} {f f' g g' : Client → Book → Client × Book} {who first : Party}

@[simp] theorem act_book : (race.act f who).book = (f (race.clients who) race.book).2 := rfl

@[simp] theorem act_self : (race.act f who).clients who = (f (race.clients who) race.book).1 :=
  Function.update_self ..

@[simp] theorem act_other : (race.act f who).clients who.other = race.clients who.other :=
  Function.update_of_ne who.other_ne ..

theorem ext_of (first : Party) (hbook : race.book = race'.book)
    (hfirst : race.clients first = race'.clients first)
    (hother : race.clients first.other = race'.clients first.other) : race = race' := by
  cases race
  cases race'
  congr
  funext who
  rcases who.eq_or_eq_other first with rfl | rfl
  · exact hfirst
  · exact hother

theorem act_idle (h : f (race.clients who) race.book = (race.clients who, race.book)) :
    race.act f who = race := by
  apply ext_of who
  · rw [act_book, h]
  · rw [act_self, h]
  · exact act_other

@[simp] theorem act_of_other : (race.act f who.other).clients who = race.clients who :=
  Function.update_of_ne who.ne_other ..

theorem act_act_congr
    (hfirst : f (race.clients first) race.book = f' (race'.clients first) race'.book)
    (hother : g (race.clients first.other) (f (race.clients first) race.book).2 =
      g' (race'.clients first.other) (f (race.clients first) race.book).2) :
    (race.act f first).act g first.other = (race'.act f' first).act g' first.other := by
  rw [hfirst] at hother
  apply ext_of first
  · simp only [act_book, act_other, hfirst, hother]
  · simp only [act_of_other, act_self, hfirst]
  · simp only [act_self, act_other, act_book, hfirst, hother]

theorem act_act (race : Race) {c c' : Client} {b b' : Book}
    (hfirst : f (race.clients first) race.book = (c, b))
    (hother : g (race.clients first.other) b = (c', b')) :
    ((race.act f first).act g first.other).book = b' ∧
      ((race.act f first).act g first.other).clients first = c ∧
      ((race.act f first).act g first.other).clients first.other = c' := by
  simp only [act_book, act_self, act_other, act_of_other, hfirst, hother, and_self]

/-- Both turns of a client at once are his whole call. -/
theorem turn_turn {r : Request} {j : Journal} (h : race.clients who = ⟨.waiting r, j⟩) :
    (race.turn who).turn who = race.act Client.call who := by
  have hturn : (Client.turn ⟨.waiting r, j⟩ race.book).1.turn race.book =
      Client.call ⟨.waiting r, j⟩ race.book := Client.turn_afterLook
  apply ext_of who
  · simp only [turn, act_book, act_self, h]
    exact congrArg Prod.snd hturn
  · simp only [turn, act_book, act_self, h]
    exact congrArg Prod.fst hturn
  · simp only [turn, act_other]

section Start
variable {b : Book} {requests : Party → Request} (journals : Party → Journal)

theorem after_looks (reader : Party) :
    (start b requests journals).after [reader, reader.other] = looked b requests journals := by
  simp only [after, List.foldl_cons, List.foldl_nil, turn]
  apply ext_of reader
  · simp only [act_book, act_other]
    rfl
  · simp only [act_of_other, act_self]
    rfl
  · simp only [act_self, act_other]
    rfl

theorem after_uninterrupted (first : Party) :
    (start b requests journals).after [first, first, first.other, first.other] =
      (start b requests journals).serial first := by
  have hfirst : (start b requests journals).clients first =
      ⟨.waiting (requests first), journals first⟩ := rfl
  have hother : ((start b requests journals).act Client.call first).clients first.other =
      ⟨.waiting (requests first.other), journals first.other⟩ := act_other
  simp only [after, List.foldl_cons, List.foldl_nil, serial]
  rw [turn_turn hfirst, turn_turn hother]

/-- The first to write does what he does when he is alone. -/
theorem turn_looked (first : Party) (hother :
    (Client.afterLook (requests first.other) (journals first.other) b.store).turn
      (Client.call ⟨.waiting (requests first), journals first⟩ b).2 =
    Client.call ⟨.waiting (requests first.other), journals first.other⟩
      (Client.call ⟨.waiting (requests first), journals first⟩ b).2) :
    ((looked b requests journals).turn first).turn first.other =
      (start b requests journals).serial first := by
  have hfirst : ((looked b requests journals).clients first).turn
      (looked b requests journals).book =
      Client.call ⟨.waiting (requests first), journals first⟩ b := Client.turn_afterLook
  apply act_act_congr
  · exact hfirst
  · rw [hfirst]
    exact hother

variable (ho : b.store.Orderly)
include ho

/-- A client who has been refused is done, so that the other one has the store for himself. -/
theorem turn_looked_of_refusal? {first : Party} {f : Failure}
    (h : (requests first).refusal? b.store = some f) :
    ((looked b requests journals).turn first).turn first.other =
      (start b requests journals).serial first := by
  apply turn_looked
  rw [Client.call_of_refusal? ho.toComplete h]
  exact Client.turn_afterLook

theorem turn_looked_comm {first : Party} {f : Failure}
    (h : (requests first.other).refusal? b.store = some f) :
    ((looked b requests journals).turn first).turn first.other =
      ((looked b requests journals).turn first.other).turn first := by
  have hidle (race : Race)
      (hrace : race.clients first.other = (looked b requests journals).clients first.other) :
      race.turn first.other = race := by
    apply act_idle
    rw [hrace]
    exact Client.turn_of_refusal? ho.toComplete h
  rw [hidle ((looked b requests journals).turn first) act_other, hidle _ rfl]

theorem serial_of_refusal? {first who : Party} {f : Failure}
    (h : (requests who).refusal? b.store = some f) :
    ((looked b requests journals).turn first).turn first.other =
      (start b requests journals).serial who := by
  rcases who.eq_or_eq_other first with rfl | rfl
  · exact turn_looked_of_refusal? journals ho h
  · rw [turn_looked_comm journals ho h]
    have hswap := turn_looked_of_refusal? journals ho h
    rwa [Party.other_other] at hswap

theorem serial_of_not_samePair {first : Party} (h : ∀ who, (requests who).refusal? b.store = none)
    (hpair : ¬ (requests first).SamePair (requests first.other)) :
    ((looked b requests journals).turn first).turn first.other =
      (start b requests journals).serial first := by
  apply turn_looked
  rw [Client.call_of_refusal?_eq_none ho.toKeyed (h first)]
  have hk := Request.keyed_changed ho.toKeyed (h first)
  exact Client.turn_of_still_allowed ho.toComplete (h first.other) hk.toComplete
    (Request.refusal?_changed_of_not_samePair (h first.other) hpair)

theorem serial_of_same_send {first : Party} {sender target : String}
    (h : ∀ who, (requests who).refusal? b.store = none)
    (hsend : ∀ who, requests who = .send sender target) :
    ((looked b requests journals).turn first).turn first.other =
      (start b requests journals).serial first := by
  apply turn_looked
  rw [Client.call_of_refusal?_eq_none ho.toKeyed (h first)]
  have hk := Request.keyed_changed ho.toKeyed (h first)
  obtain ⟨hadds, hedge⟩ := (Request.taken_iff (h first) (h first.other)).mpr
    ⟨by rw [hsend, hsend], by rw [hsend]; rfl⟩
  have hrefused : (requests first.other).refusal? ((requests first).changed b.store) =
      some (.alreadySent (requests first.other).edge.text) := by
    have hne := Request.subject_ne_other (h first.other) ho.noSelfEdges
    simp only [hsend first.other] at hne hedge ⊢
    exact (if_neg hne).trans (if_pos hedge)
  rw [Client.turn_of_taken ho.toComplete (h first.other) hk.toComplete hadds hedge,
    Client.call_of_refusal? hk.toComplete hrefused]

/-- What becomes of two requests that collide. The earlier one has written first. -/
structure Collided (b : Book) (requests : Party → Request) (earlier : Party) (race : Race) :
    Prop where
  first : (race.clients earlier).progress = .answered (.ok ())
  /-- Both accept the same request. -/
  again : requests earlier.other = requests earlier ∧ (requests earlier.other).adds = true →
    (race.clients earlier.other).progress =
      .answered (.error (.alreadySent (requests earlier).edge.text)) ∧
    race.book.store = (requests earlier).changed b.store
  through : ¬ (requests earlier.other = requests earlier ∧ (requests earlier.other).adds = true) →
    (race.clients earlier.other).progress = .answered (.ok ()) ∧
    race.book.store = (requests earlier.other).changed ((requests earlier).changed b.store)

theorem collided (first : Party) (h : ∀ who, (requests who).refusal? b.store = none) :
    Collided b requests first (((looked b requests journals).turn first).turn first.other) := by
  have hk := Request.keyed_changed ho.toKeyed (h first)
  have hfirst : ((looked b requests journals).clients first).turn
      (looked b requests journals).book =
      (⟨.answered (.ok ()), (journals first).record (requests first).recorded⟩,
        { b with store := (requests first).changed b.store }) := by
    rw [← Client.call_of_refusal?_eq_none ho.toKeyed (h first)]
    exact Client.turn_afterLook
  have htaken := Request.taken_iff (h first) (h first.other)
  by_cases hagain : requests first.other = requests first ∧ (requests first.other).adds = true
  · obtain ⟨hadds, hedge⟩ := htaken.mpr hagain
    have hother := Client.turn_of_taken (j := journals first.other) ho.toComplete (h first.other)
      (b := { b with store := (requests first).changed b.store }) hk.toComplete hadds hedge
    obtain ⟨hbook, hone, htwo⟩ := act_act (looked b requests journals) hfirst hother
    rw [hagain.1] at htwo
    exact ⟨congrArg Client.progress hone,
      fun _ => ⟨congrArg Client.progress htwo, congrArg Book.store hbook⟩, absurd hagain⟩
  · obtain ⟨j, hother⟩ := Client.turn_of_free (j := journals first.other) ho.toComplete
      (h first.other) (b := { b with store := (requests first).changed b.store }) hk.toComplete
      fun hadds hedge => hagain (htaken.mp ⟨hadds, hedge⟩)
    obtain ⟨hbook, hone, htwo⟩ := act_act (looked b requests journals) hfirst hother
    exact ⟨congrArg Client.progress hone, fun h => absurd h hagain,
      fun _ => ⟨congrArg Client.progress htwo, congrArg Book.store hbook⟩⟩

/-- One after the other, only the first of two requests between the same users goes through. -/
theorem serial_of_samePair {first : Party} (h : ∀ who, (requests who).refusal? b.store = none)
    (hpair : (requests first).SamePair (requests first.other)) :
    ∃ f, (requests first.other).refusal? ((requests first).changed b.store) = some f ∧
      (((start b requests journals).serial first).clients first.other).progress =
        .answered (.error f) := by
  obtain ⟨f, hf⟩ := Request.refusal?_changed_of_samePair (h first) (h first.other) hpair
  have hk := Request.keyed_changed ho.toKeyed (h first)
  have hfirst := Client.call_of_refusal?_eq_none (j := journals first) ho.toKeyed (h first)
  have hother := Client.call_of_refusal? (j := journals first.other)
    (b := { b with store := (requests first).changed b.store }) hk.toComplete hf
  obtain ⟨-, -, htwo⟩ := act_act (start b requests journals) hfirst hother
  exact ⟨f, hf, congrArg Client.progress htwo⟩

theorem exists_serial_of_not_collide {reader first : Party}
    (hfree : ¬ Collide b.store requests [reader, reader.other, first, first.other]) :
    ∃ who, ((looked b requests journals).turn first).turn first.other =
      (start b requests journals).serial who := by
  by_cases hallowed : ∀ who, (requests who).refusal? b.store = none
  · by_cases hpair : (requests first).SamePair (requests first.other)
    · by_cases hsend : ∃ sender target, ∀ who, requests who = .send sender target
      · obtain ⟨sender, target, hsend⟩ := hsend
        exact ⟨first, serial_of_same_send journals ho hallowed hsend⟩
      · refine absurd ⟨?_, hallowed, ?_, ?_⟩ hfree
        · intro who
          rcases who.eq_or_eq_other reader with rfl | rfl <;> simp
        · intro who
          rcases who.eq_or_eq_other first with rfl | rfl
          · exact hpair
          · rw [Party.other_other]
            exact hpair.symm
        · exact fun sender target hboth => hsend ⟨sender, target, hboth⟩
    · exact ⟨first, serial_of_not_samePair journals ho hallowed hpair⟩
  · obtain ⟨who, hwho⟩ := not_forall.mp hallowed
    obtain ⟨f, hf⟩ := Option.ne_none_iff_exists'.mp hwho
    exact ⟨who, serial_of_refusal? journals ho hf⟩

/-- In either order one of the two would have been told something else. -/
theorem not_sameOutcome_of_collide {turns : List Party} (hcollide : Collide b.store requests turns)
    (first who : Party) :
    ¬ SameOutcome (((looked b requests journals).turn first).turn first.other)
      ((start b requests journals).serial who) := by
  rintro ⟨-, hanswers⟩
  have hend := collided journals ho first hcollide.allowed
  obtain ⟨f, hf, hserial⟩ := serial_of_samePair journals ho hcollide.allowed (hcollide.pair who)
  rw [← hanswers] at hserial
  rcases who.eq_or_eq_other first with rfl | rfl
  · by_cases hagain : requests who.other = requests who ∧ (requests who.other).adds = true
    · rw [(hend.again hagain).1] at hserial
      cases hserial
      obtain ⟨sender, target, hsend⟩ := Request.eq_send_of_alreadySent hf
      apply hcollide.differ sender target
      intro other
      rcases other.eq_or_eq_other who with rfl | rfl
      · rw [← hagain.1, hsend]
      · exact hsend
    · rw [(hend.through hagain).1] at hserial
      cases hserial
  · rw [Party.other_other, hend.first] at hserial
    cases hserial

end Start

/-- Two requests at the same time come out as one after the other, in one of the two orders,
unless they collide. When they collide they come out as in neither order: the first to write
is told of success, and so is the second, except when he adds the same edge again. -/
theorem serial_unless_collide {b : Book} (ho : b.store.Orderly) (requests : Party → Request)
    (journals : Party → Journal) {turns : List Party}
    (hturns : turns.Perm [.one, .one, .two, .two]) :
    (¬ Collide b.store requests turns → ∃ first,
      (start b requests journals).after turns = (start b requests journals).serial first) ∧
    (Collide b.store requests turns →
      (∀ first, ¬ SameOutcome ((start b requests journals).after turns)
        ((start b requests journals).serial first)) ∧
      ∃ first, turns.drop 2 = [first, first.other] ∧
        Collided b requests first ((start b requests journals).after turns)) := by
  rcases Party.schedule_cases hturns with ⟨first, rfl⟩ | ⟨reader, first, rfl⟩
  · refine ⟨fun _ => ⟨first, after_uninterrupted journals first⟩, ?_⟩
    intro hcollide
    simpa using hcollide.reads first.other
  · have hafter : (start b requests journals).after [reader, reader.other, first, first.other] =
        ((looked b requests journals).turn first).turn first.other := by
      rw [← after_looks journals reader]
      rfl
    rw [hafter]
    refine ⟨exists_serial_of_not_collide journals ho, fun hcollide => ⟨?_, first, rfl, ?_⟩⟩
    · exact not_sameOutcome_of_collide journals ho hcollide first
    · exact collided journals ho first hcollide.allowed

/-- Each of the two asks the other one. -/
def crossing : Party → Request
  | .one => .send "alice" "bob"
  | .two => .send "bob" "alice"

/-- Both ask the same user. -/
def converging : Party → Request
  | .one => .send "alice" "carol"
  | .two => .send "bob" "carol"

def alternating : List Party := [.one, .two, .one, .two]

theorem alternating_races : Book.fresh.store.Orderly ∧ alternating.Perm [.one, .one, .two, .two] ∧
    (∃ first, (start .fresh converging fun _ => .empty).after alternating =
      (start .fresh converging fun _ => .empty).serial first) ∧
    Collide Book.fresh.store crossing alternating ∧
    ∃ first, alternating.drop 2 = [first, first.other] ∧
      Collided .fresh crossing first
        ((start .fresh crossing fun _ => .empty).after alternating) := by
  have hturns : alternating.Perm [.one, .one, .two, .two] := by decide
  have hcollide : Collide Book.fresh.store crossing alternating := by
    refine ⟨?_, ?_, ?_, ?_⟩
    · intro who
      cases who <;> decide
    · intro who
      cases who <;> decide +kernel
    · intro who
      cases who <;> exact .inr rfl
    · intro sender target hboth
      have hone : Request.send "alice" "bob" = .send sender target := hboth .one
      exact absurd ((hboth .two).trans hone.symm) (by decide)
  have hfree : ¬ Collide Book.fresh.store converging alternating := by
    intro h
    rcases h.pair .one with hedge | hreverse
    · exact absurd hedge (by decide)
    · exact absurd hreverse (by decide)
  obtain ⟨hserial, -⟩ :=
    serial_unless_collide Friends.orderly_fresh converging (fun _ => .empty) hturns
  obtain ⟨-, hcollided⟩ :=
    serial_unless_collide Friends.orderly_fresh crossing (fun _ => .empty) hturns
  exact ⟨Friends.orderly_fresh, hturns, hserial hfree, hcollide, (hcollided hcollide).2⟩

/-- Requests that cross each other make friends of their senders, while in either order the
second one would have found the first. -/
theorem crossing_comes_out_in_no_order :
    Book.fresh.store.Orderly ∧ alternating.Perm [.one, .one, .two, .two] ∧
      ∀ first, ¬ SameOutcome ((start .fresh crossing fun _ => .empty).after alternating)
        ((start .fresh crossing fun _ => .empty).serial first) := by
  refine ⟨Friends.orderly_fresh, by decide, ?_⟩
  rintro first ⟨hstore, -⟩
  cases first <;> revert hstore <;> decide +kernel

end Race
end FriendLedger
