import FriendLedger.Ledger.Between
import FriendLedger.Proofs.Ledger.BalanceRows
import FriendLedger.Proofs.Ledger.Listing
import FriendLedger.Proofs.Text.Bytes

/-! What two users have in common, on every store whose deals have keys of their own.
Each common deal is listed once, the oldest first, with one share for each of the two.
The first deal that cannot be read is the answer of the whole call, and which of the
two asks makes no difference. -/

namespace FriendLedger

set_option autoImplicit false

namespace DealRow

/-- What is wrong with the header; the id is looked at before the currency. -/
def fault? (d : DealRow) : Option Failure :=
  match Id.ofText? d.id, Currency.ofText? d.currency with
  | none, _ => some (.invalidId "invalid expense id")
  | some _, none => some (.corruptRow ("invalid stored currency " ++ Text.quoted d.currency))
  | some _, some _ => none

/-- Older, or as old and stored under a smaller text. -/
def Precedes (d d' : DealRow) : Prop :=
  d.timestamp < d'.timestamp ∨ d.timestamp = d'.timestamp ∧ Text.bytes d.id < Text.bytes d'.id

variable {d : DealRow} {shares : List Share}

theorem decode_eq_error_iff {f : Failure} : d.decode shares = .error f ↔ d.fault? = some f := by
  unfold decode decodeId Currency.decode fault?
  cases Id.ofText? d.id with
  | none => simp
  | some i => cases Currency.ofText? d.currency <;> simp

theorem decode_eq_ok {e : Expense} (h : d.decode shares = .ok e) :
    ∃ i c, Id.ofText? d.id = some i ∧ Currency.ofText? d.currency = some c ∧
      e = ⟨some i, d.timestamp, d.details, d.cost, c, Share.sorted shares⟩ := by
  unfold decode decodeId Currency.decode at h
  cases hi : Id.ofText? d.id with
  | none => simp [hi] at h
  | some i =>
    cases hc : Currency.ofText? d.currency with
    | none => simp [hi, hc] at h
    | some c =>
      simp only [hi, hc, ok_bind, pure_eq_ok, Except.ok.injEq] at h
      exact ⟨i, c, rfl, rfl, h.symm⟩

end DealRow

/-- The shares of distinct users, in ascending order. -/
theorem Share.pairwise_sorted {shares : List Share} (hn : (shares.map (·.counterparty)).Nodup) :
    (sorted shares).Pairwise fun x y => Text.bytes x.counterparty < Text.bytes y.counterparty := by
  have hsorted : ((sorted shares).map (·.counterparty)).Nodup :=
    (((List.mergeSort_perm shares listedBefore).map _).nodup_iff).mpr hn
  apply ((stablySorted_sorted shares).ordered.and (List.pairwise_map.mp hsorted)).imp
  rintro x y ⟨hle, hne⟩
  apply Text.bytes_lt
  exact String.not_le.mp fun hge => hne (String.le_antisymm hle hge)

/-- The expense as two users see it: the header of the deal, and one share for each of
them with the exact sum of his costs. -/
structure Expense.ViewOf (s : Store) (a b : String) (d : DealRow) (e : Expense) : Prop where
  id : ∃ i, Id.ofText? d.id = some i ∧ e.id = some i
  timestamp : e.timestamp = d.timestamp
  details : e.details = d.details
  totalCost : e.totalCost = d.cost
  currency : Currency.ofText? d.currency = some e.currency
  ascending : e.shares.Pairwise fun x y => Text.bytes x.counterparty < Text.bytes y.counterparty
  parties : ∀ u, (∃ x ∈ e.shares, x.counterparty = u) ↔ u = a ∨ u = b
  costs : ∀ x ∈ e.shares, x.signedCost.toInt = s.ownCost x.counterparty d

namespace Ledger

/-! ### The joined rows -/

section Totals
variable {rows : List SpendingRow} {user id : String} {mine : List (String × Amount)}
  (h : totalsByDeal rows user = .ok mine)
include h

theorem isSome_lookup_iff :
    (mine.lookup id).isSome ↔ ∃ p ∈ rows, p.dealId = id ∧ p.counterparty = user := by
  have hkey : (mine.lookup id).isSome ↔ id ∈ mine.map (·.1) := by
    rw [List.lookup_isSome_iff, List.mem_map]
    simp only [beq_iff_eq, eq_comm (a := id)]
  rw [hkey, (totalsByDeal_eq_ok h).1, mem_dealsOf_iff]
  apply exists_congr
  intro p
  rw [and_comm (a := p.dealId = id)]

theorem toInt_of_lookup {x : Amount} (hx : mine.lookup id = some x) :
    x.toInt = ((costsIn rows user id).map Int64.toInt).sum := by
  obtain ⟨pre, post, rfl, -⟩ := List.lookup_eq_some_iff.mp hx
  exact (totalsByDeal_eq_ok h).2 (id, x) (by simp)

end Totals

variable {s : Store} {a b : String} {first second : List (String × Amount)}

theorem mem_joinPair_iff {deals : List DealRow} {r : PairRow} :
    r ∈ joinPair deals first second ↔
      r.deal ∈ deals ∧ first.lookup r.deal.id = some r.first ∧
        second.lookup r.deal.id = some r.second := by
  unfold joinPair
  rw [List.mem_filterMap]
  constructor
  · rintro ⟨d, hd, hr⟩
    split at hr
    · rename_i x y hx hy
      cases hr
      exact ⟨hd, hx, hy⟩
    · cases hr
  · rintro ⟨hd, hx, hy⟩
    exact ⟨r.deal, hd, by simp only [hx, hy]⟩

theorem map_deal_joinPair (deals : List DealRow) :
    (joinPair deals first second).map (·.deal) =
      deals.filter fun d => (first.lookup d.id).isSome && (second.lookup d.id).isSome := by
  induction deals with
  | nil => rfl
  | cons d deals ih =>
    unfold joinPair at ih ⊢
    cases hx : first.lookup d.id <;> cases hy : second.lookup d.id <;> simp [hx, hy, ih]

theorem map_deal_joinPair_totals (ha : totalsByDeal s.heldSpendings a = .ok first)
    (hb : totalsByDeal s.heldSpendings b = .ok second) :
    (joinPair s.heldDeals first second).map (·.deal) = s.commonDeals a b := by
  rw [map_deal_joinPair, Store.commonDeals]
  apply List.filter_congr
  intro d _
  rw [Bool.eq_iff_iff, Bool.and_eq_true, isSome_lookup_iff ha, isSome_lookup_iff hb, decide_eq_true_eq]
  rfl

/-- The rows of a statement that succeeds. Without spendings of the first user the sums of
the second one are not taken. -/
theorem pairRows_eq_ok (hc : s.Complete) {rows : List PairRow} (h : pairRows s a b = .ok rows) :
    ∃ first, totalsByDeal s.heldSpendings a = .ok first ∧
      (first = [] ∧ rows = [] ∨ ∃ second, totalsByDeal s.heldSpendings b = .ok second ∧
        rows = (joinPair s.heldDeals first second).mergeSort PairRow.listedBefore) := by
  unfold pairRows at h
  rw [hc.dealRows_eq, ok_bind, hc.spendingRows_eq, ok_bind] at h
  obtain ⟨first, hfirst, h⟩ := bind_eq_ok_iff.mp h
  refine ⟨first, hfirst, ?_⟩
  cases first with
  | nil =>
    cases h
    exact .inl ⟨rfl, rfl⟩
  | cons m first =>
    obtain ⟨second, hsecond, h⟩ := bind_eq_ok_iff.mp h
    cases h
    exact .inr ⟨second, hsecond, rfl⟩

theorem commonDeals_eq_nil (h : totalsByDeal s.heldSpendings a = .ok []) :
    s.commonDeals a b = [] := by
  rw [Store.commonDeals, List.filter_eq_nil_iff]
  intro d _ hd
  have hnone : (([] : List (String × Amount)).lookup d.id).isSome :=
    (isSome_lookup_iff h).mpr (of_decide_eq_true hd).1
  cases hnone

theorem perm_pairRows (hc : s.Complete) {rows : List PairRow} (h : pairRows s a b = .ok rows) :
    (rows.map (·.deal)).Perm (s.commonDeals a b) ∧ ∀ r ∈ rows,
      r.first.toInt = s.ownCost a r.deal ∧ r.second.toInt = s.ownCost b r.deal := by
  obtain ⟨first, hfirst, ⟨rfl, rfl⟩ | ⟨second, hsecond, rfl⟩⟩ := pairRows_eq_ok hc h
  · rw [commonDeals_eq_nil hfirst]
    exact ⟨.nil, List.forall_mem_nil _⟩
  · constructor
    · rw [← map_deal_joinPair_totals hfirst hsecond]
      exact (List.mergeSort_perm _ _).map _
    · intro r hr
      obtain ⟨-, hx, hy⟩ := mem_joinPair_iff.mp ((List.mergeSort_perm _ _).mem_iff.mp hr)
      rw [toInt_of_lookup hfirst hx, toInt_of_lookup hsecond hy]
      simp [costsIn, Store.ownCost, Function.comp_def]

/-! ### Their order -/

theorem listedBefore_iff {r q : PairRow} : r.listedBefore q = true ↔
    r.deal.timestamp < q.deal.timestamp ∨
      r.deal.timestamp = q.deal.timestamp ∧ r.deal.id ≤ q.deal.id := by
  simp [PairRow.listedBefore]

theorem PairRow.listedBefore_trans (r q t : PairRow) (hrq : r.listedBefore q) (hqt : q.listedBefore t) :
    r.listedBefore t := by
  rw [listedBefore_iff] at *
  rcases hrq with hrq | ⟨hrq, hid⟩ <;> rcases hqt with hqt | ⟨hqt, hid'⟩
  · exact .inl (Int64.lt_trans hrq hqt)
  · exact .inl (hqt ▸ hrq)
  · exact .inl (hrq ▸ hqt)
  · exact .inr ⟨hrq.trans hqt, String.le_trans hid hid'⟩

theorem PairRow.listedBefore_total (r q : PairRow) : r.listedBefore q || q.listedBefore r := by
  rw [Bool.or_eq_true, listedBefore_iff, listedBefore_iff]
  by_cases ht : r.deal.timestamp = q.deal.timestamp
  · rcases String.le_total r.deal.id q.deal.id with hid | hid
    · exact .inl (.inr ⟨ht, hid⟩)
    · exact .inr (.inr ⟨ht.symm, hid⟩)
  · rcases Int64.le_total r.deal.timestamp q.deal.timestamp with hle | hle
    · exact .inl (.inl (Int64.lt_of_le_of_ne hle ht))
    · exact .inr (.inl (Int64.lt_of_le_of_ne hle (Ne.symm ht)))

/-- Deals with keys of their own are strictly ordered. -/
theorem pairwise_pairRows (hc : s.Complete) (hn : (s.heldDeals.map (·.id)).Nodup)
    {rows : List PairRow} (h : pairRows s a b = .ok rows) :
    (rows.map (·.deal)).Pairwise DealRow.Precedes := by
  have hids : (rows.map (·.deal.id)).Nodup := by
    have hperm := ((perm_pairRows hc h).1.map (·.id)).nodup_iff
    rw [List.map_map] at hperm
    exact hperm.mpr (hn.sublist (List.filter_sublist.map _))
  have hordered : rows.Pairwise fun r q => r.listedBefore q = true := by
    obtain ⟨first, -, ⟨-, rfl⟩ | ⟨second, -, rfl⟩⟩ := pairRows_eq_ok hc h
    · exact .nil
    · exact List.pairwise_mergeSort PairRow.listedBefore_trans PairRow.listedBefore_total _
  rw [List.pairwise_map]
  apply (hordered.and (List.pairwise_map.mp hids)).imp
  rintro r q ⟨hle, hne⟩
  rcases listedBefore_iff.mp hle with hlt | ⟨ht, hid⟩
  · exact .inl hlt
  · refine .inr ⟨ht, Text.bytes_lt ?_⟩
    exact String.not_le.mp fun hge => hne (String.le_antisymm hid hge)

/-! ### Reading them -/

/-- The shares that a row gives to the two users. -/
def PairRow.shares (r : PairRow) (a b : String) : List Share :=
  if a = b then [⟨a, r.first⟩] else [⟨a, r.first⟩, ⟨b, r.second⟩]

theorem PairRow.viewOf {r : PairRow} {e : Expense} (hfirst : r.first.toInt = s.ownCost a r.deal)
    (hsecond : r.second.toInt = s.ownCost b r.deal) (h : r.decode a b = .ok e) :
    e.ViewOf s a b r.deal := by
  obtain ⟨i, c, hi, hcur, rfl⟩ := DealRow.decode_eq_ok h
  have hnodup : ((r.shares a b).map (·.counterparty)).Nodup := by
    unfold PairRow.shares
    split <;> simp_all
  have hmem (x : Share) : x ∈ Share.sorted (r.shares a b) ↔ x = ⟨a, r.first⟩ ∨ a ≠ b ∧ x = ⟨b, r.second⟩ := by
    rw [Share.mem_sorted_iff, PairRow.shares]
    split <;> simp_all
  refine ⟨⟨i, hi, rfl⟩, rfl, rfl, rfl, hcur, Share.pairwise_sorted hnodup, ?_, ?_⟩
  · intro u
    constructor
    · rintro ⟨x, hx, rfl⟩
      rcases (hmem x).mp hx with rfl | ⟨-, rfl⟩
      · exact .inl rfl
      · exact .inr rfl
    · rintro (rfl | rfl)
      · exact ⟨_, (hmem _).mpr (.inl rfl), rfl⟩
      · by_cases hab : a = u
        · exact ⟨_, (hmem _).mpr (.inl rfl), hab⟩
        · exact ⟨_, (hmem _).mpr (.inr ⟨hab, rfl⟩), rfl⟩
  · intro x hx
    rcases (hmem x).mp hx with rfl | ⟨-, rfl⟩
    · exact hfirst
    · exact hsecond

theorem between_eq_mapM {rows : List PairRow} (h : pairRows s a b = .ok rows) :
    between s a b = rows.mapM (·.decode a b) := by
  rw [between, h]
  rfl

theorem between_eq_error_iff {rows : List PairRow} (h : pairRows s a b = .ok rows) {f : Failure} :
    between s a b = .error f ↔ (rows.map (·.deal)).findSome? DealRow.fault? = some f := by
  rw [between_eq_mapM h, List.findSome?_map]
  exact mapM_eq_error_iff fun r f => DealRow.decode_eq_error_iff

theorem forall₂_viewOf (hc : s.Complete) {rows : List PairRow} (h : pairRows s a b = .ok rows)
    {es : List Expense} (hes : between s a b = .ok es) :
    List.Forall₂ (fun d e => e.ViewOf s a b d) (rows.map (·.deal)) es := by
  rw [between_eq_mapM h] at hes
  rw [List.forall₂_map_left_iff]
  obtain ⟨-, hsums⟩ := perm_pairRows hc h
  apply ((List.forall₂_and_left _ _).mpr ⟨hsums, mapM_eq_ok_iff.mp hes⟩).imp
  rintro r e ⟨⟨hfirst, hsecond⟩, he⟩
  exact PairRow.viewOf hfirst hsecond he

/-! ### The other user asks -/

def PairRow.swap (r : PairRow) : PairRow := ⟨r.deal, r.second, r.first⟩

theorem map_swap_joinPair (deals : List DealRow) :
    (joinPair deals first second).map PairRow.swap = joinPair deals second first := by
  induction deals with
  | nil => rfl
  | cons d deals ih =>
    unfold joinPair at ih ⊢
    cases hx : first.lookup d.id <;> cases hy : second.lookup d.id <;>
      simp [hx, hy, ih, PairRow.swap]

theorem joinPair_nil (deals : List DealRow) : joinPair deals [] second = [] := by
  simp [joinPair]

theorem eq_mergeSort_of_totals (hc : s.Complete) {rows : List PairRow}
    (ha : totalsByDeal s.heldSpendings a = .ok first)
    (hb : totalsByDeal s.heldSpendings b = .ok second) (h : pairRows s a b = .ok rows) :
    rows = (joinPair s.heldDeals first second).mergeSort PairRow.listedBefore := by
  obtain ⟨xs, hxs, hrows⟩ := pairRows_eq_ok hc h
  cases ha.symm.trans hxs
  rcases hrows with ⟨rfl, rfl⟩ | ⟨ys, hys, rfl⟩
  · rw [joinPair_nil, List.mergeSort_nil]
  · cases hb.symm.trans hys
    rfl

theorem pairRows_swap (hc : s.Complete) {rows rows' : List PairRow} (h : pairRows s a b = .ok rows)
    (h' : pairRows s b a = .ok rows') : rows' = rows.map PairRow.swap := by
  obtain ⟨first, hfirst, -⟩ := pairRows_eq_ok hc h
  obtain ⟨second, hsecond, -⟩ := pairRows_eq_ok hc h'
  rw [eq_mergeSort_of_totals hc hfirst hsecond h, eq_mergeSort_of_totals hc hsecond hfirst h',
    ← map_swap_joinPair s.heldDeals]
  have hsame : ∀ r ∈ joinPair s.heldDeals first second, ∀ q ∈ joinPair s.heldDeals first second,
      r.listedBefore q = r.swap.listedBefore q.swap := fun _ _ _ _ => rfl
  exact (List.map_mergeSort hsame).symm

theorem PairRow.decode_swap (r : PairRow) (hab : a ≠ b) : r.swap.decode b a = r.decode a b := by
  have hsorted : Share.sorted [⟨b, r.second⟩, ⟨a, r.first⟩] =
      Share.sorted [⟨a, r.first⟩, ⟨b, r.second⟩] := by
    have hanti : ∀ x y, x ∈ Share.sorted [⟨b, r.second⟩, ⟨a, r.first⟩] →
        y ∈ Share.sorted [⟨a, r.first⟩, ⟨b, r.second⟩] →
          x.listedBefore y = true → y.listedBefore x = true → x = y := by
      intro x y hx hy hxy hyx
      rw [Share.mem_sorted_iff] at hx hy
      have hparty : x.counterparty = y.counterparty :=
        String.le_antisymm (of_decide_eq_true hxy) (of_decide_eq_true hyx)
      simp only [List.mem_cons, List.not_mem_nil, or_false] at hx hy
      rcases hx with hx | hx <;> rcases hy with hy | hy
      · rw [hx, hy] at hparty
        exact absurd hparty.symm hab
      · rw [hx, hy]
      · rw [hx, hy]
      · rw [hx, hy] at hparty
        exact absurd hparty hab
    apply List.Perm.eq_of_pairwise hanti
    · exact List.pairwise_mergeSort Share.listedBefore_trans Share.listedBefore_total _
    · exact List.pairwise_mergeSort Share.listedBefore_trans Share.listedBefore_total _
    · exact ((List.mergeSort_perm _ _).trans (.swap _ _ _)).trans (List.mergeSort_perm _ _).symm
  unfold PairRow.decode DealRow.decode
  rw [if_neg hab, if_neg (Ne.symm hab)]
  simp only [PairRow.swap, hsorted]

/-- As long as the store takes the sums, it does not matter who asks. -/
theorem between_comm (hc : s.Complete) {rows rows' : List PairRow} (h : pairRows s a b = .ok rows)
    (h' : pairRows s b a = .ok rows') : between s a b = between s b a := by
  by_cases hab : a = b
  · rw [hab]
  · have hswap : (·.decode a b) = (·.decode b a) ∘ PairRow.swap :=
      funext fun r => (r.decode_swap hab).symm
    rw [between_eq_mapM h, between_eq_mapM h', pairRows_swap hc h h', List.mapM_map, hswap]

/-- The common expenses of two users, whatever rows the tables hold: one for each deal in
which both have a part, strictly in the order of time and id. When the sums are taken
and a deal cannot be read, the answer is what is wrong with the first such deal. -/
theorem between_eq_definition (hc : s.Complete) (hn : (s.heldDeals.map (·.id)).Nodup)
    (a b : String) :
    (∀ es, between s a b = .ok es → ∃ ds : List DealRow, ds.Perm (s.commonDeals a b) ∧
      ds.Pairwise DealRow.Precedes ∧ List.Forall₂ (fun d e => e.ViewOf s a b d) ds es) ∧
    (∀ rows, pairRows s a b = .ok rows → ∃ ds : List DealRow, ds.Perm (s.commonDeals a b) ∧
      ds.Pairwise DealRow.Precedes ∧
        ∀ f, between s a b = .error f ↔ ds.findSome? DealRow.fault? = some f) ∧
    ∀ rows rows', pairRows s a b = .ok rows → pairRows s b a = .ok rows' →
      between s a b = between s b a := by
  refine ⟨?_, ?_, fun _ _ h h' => between_comm hc h h'⟩
  · intro es hes
    obtain ⟨rows, hrows, -⟩ := bind_eq_ok_iff.mp hes
    have hrows := orDatabase_eq_ok_iff.mp hrows
    exact ⟨rows.map (·.deal), (perm_pairRows hc hrows).1, pairwise_pairRows hc hn hrows,
      forall₂_viewOf hc hrows hes⟩
  · intro rows hrows
    exact ⟨rows.map (·.deal), (perm_pairRows hc hrows).1, pairwise_pairRows hc hn hrows,
      fun f => between_eq_error_iff hrows⟩

/-- Two deals of one time, in the later of which alice holds two spendings, and a deal of
hers alone, which cannot be read. -/
def picnicStore : Store :=
  ⟨some [],
    some [⟨(Id.minted 2).toText, 5, "tea", 3, " eur "⟩, ⟨(Id.minted 1).toText, 5, "bread", 4, "EUR"⟩,
      ⟨"walk", 6, "walk", 0, ""⟩],
    some [⟨"1", (Id.minted 2).toText, 3, "bob"⟩, ⟨"2", (Id.minted 2).toText, 1, "alice"⟩,
      ⟨"3", (Id.minted 2).toText, -1, "alice"⟩, ⟨"4", (Id.minted 1).toText, 2, "alice"⟩,
      ⟨"5", (Id.minted 1).toText, 2, "bob"⟩, ⟨"6", "walk", 0, "alice"⟩], true⟩

theorem between_of_picnic : picnicStore.Complete ∧ (picnicStore.heldDeals.map (·.id)).Nodup ∧
    ∃ es, between picnicStore "alice" "bob" = .ok es ∧ es.length = 2 ∧
      ∃ ds : List DealRow, ds.Pairwise DealRow.Precedes ∧
        List.Forall₂ (fun d e => e.ViewOf picnicStore "alice" "bob" d) ds es := by
  have hc : picnicStore.Complete := ⟨rfl, rfl, rfl⟩
  have hn : (picnicStore.heldDeals.map (·.id)).Nodup := by decide +kernel
  have hread : ∀ d ∈ picnicStore.commonDeals "alice" "bob", d.fault? = none := by decide +kernel
  obtain ⟨hviews, hfaults, -⟩ := between_eq_definition hc hn "alice" "bob"
  have hrows : ∃ rows, pairRows picnicStore "alice" "bob" = .ok rows := by
    cases h : pairRows picnicStore "alice" "bob" with
    | ok rows => exact ⟨rows, rfl⟩
    | error f =>
      have hok : (pairRows picnicStore "alice" "bob").isOk = true := by decide +kernel
      rw [h] at hok
      cases hok
  obtain ⟨rows, hrows⟩ := hrows
  cases hes : between picnicStore "alice" "bob" with
  | error f =>
    obtain ⟨ds, hperm, -, hfault⟩ := hfaults rows hrows
    obtain ⟨d, hd, hf⟩ := List.exists_of_findSome?_eq_some ((hfault f).mp hes)
    rw [hread d (hperm.mem_iff.mp hd)] at hf
    cases hf
  | ok es =>
    obtain ⟨ds, hperm, hordered, hall⟩ := hviews es hes
    have hlength : (picnicStore.commonDeals "alice" "bob").length = 2 := by decide +kernel
    exact ⟨hc, hn, es, rfl, by rw [← hall.length_eq, hperm.length_eq, hlength], ds, hordered, hall⟩

end Ledger
end FriendLedger
