import FriendLedger.Book
import Mathlib.Algebra.Order.Ring.Int
import Mathlib.Data.List.Forall2

/-! Calls that can fail, taken apart: a sequence of calls answers a value exactly
when each of its calls does. -/

namespace FriendLedger

set_option autoImplicit false

variable {ε α β : Type}

@[simp] theorem ok_bind (a : α) (f : α → Except ε β) : (Except.ok a >>= f) = f a := rfl

@[simp] theorem error_bind (e : ε) (f : α → Except ε β) :
    (Except.error e >>= f) = .error e := rfl

@[simp] theorem pure_eq_ok (a : α) : (pure a : Except ε α) = .ok a := rfl

@[simp] theorem throw_eq_error (e : ε) : (throw e : Except ε α) = .error e := rfl

theorem bind_eq_ok_iff {x : Except ε α} {f : α → Except ε β} {b : β} :
    (x >>= f) = .ok b ↔ ∃ a, x = .ok a ∧ f a = .ok b := by
  cases x with
  | ok a => simp
  | error e => simp

theorem orStop_eq_ok_iff {x : Except Failure α} {a : α} : orStop x = .ok a ↔ x = .ok a := by
  cases x <;> simp [orStop]

theorem orDatabase_eq_ok_iff {x : Except StoreFault α} {a : α} :
    orDatabase x = .ok a ↔ x = .ok a := by
  cases x <;> simp [orDatabase]

@[simp] theorem isOk_orStop (x : Except Failure α) : (orStop x).isOk = x.isOk := by
  cases x <;> rfl

theorem exists_of_isOk {x : Except ε α} (h : x.isOk = true) : ∃ a, x = .ok a := by
  cases x with
  | ok a => exact ⟨a, rfl⟩
  | error e => cases h

/-- Calls for all members of a list answer one value each. -/
theorem mapM_eq_ok_iff {f : α → Except ε β} {as : List α} {bs : List β} :
    as.mapM f = .ok bs ↔ List.Forall₂ (fun a b => f a = .ok b) as bs := by
  induction as generalizing bs with
  | nil => simp [eq_comm]
  | cons a as ih =>
    rw [List.mapM_cons, bind_eq_ok_iff]
    constructor
    · rintro ⟨b, hb, h⟩
      obtain ⟨bs', hbs, h⟩ := bind_eq_ok_iff.mp h
      cases h
      exact .cons hb (ih.mp hbs)
    · intro h
      cases h with
      | cons hb hbs => exact ⟨_, hb, bind_eq_ok_iff.mpr ⟨_, ih.mpr hbs, rfl⟩⟩

theorem mapM_congr {f g : α → Except ε β} {as : List α} (h : ∀ a ∈ as, f a = g a) :
    as.mapM f = as.mapM g := by
  induction as with
  | nil => rfl
  | cons a as ih =>
    obtain ⟨ha, has⟩ := List.forall_mem_cons.mp h
    rw [List.mapM_cons, List.mapM_cons, ha, ih has]

theorem exists_of_mem_mapM {f : α → Except ε β} {as : List α} {bs : List β} (h : as.mapM f = .ok bs)
    {b : β} (hb : b ∈ bs) : ∃ a ∈ as, f a = .ok b := by
  have hrel := mapM_eq_ok_iff.mp h
  clear h
  induction hrel with
  | nil => cases hb
  | @cons a b' as bs hab _ ih =>
    rcases List.mem_cons.mp hb with rfl | hb
    · exact ⟨a, List.mem_cons_self, hab⟩
    · obtain ⟨a', ha', hab'⟩ := ih hb
      exact ⟨a', List.mem_cons_of_mem a ha', hab'⟩

/-- The first call that fails decides why the whole sequence fails. -/
theorem mapM_eq_error_iff {f : α → Except ε β} {fault : α → Option ε}
    (hf : ∀ a e, f a = .error e ↔ fault a = some e) {as : List α} {e : ε} :
    as.mapM f = .error e ↔ as.findSome? fault = some e := by
  induction as with
  | nil => simp
  | cons a as ih =>
    rw [List.mapM_cons, List.findSome?_cons]
    cases ha : f a with
    | error e' =>
      rw [(hf a e').mp ha, error_bind]
      simp
    | ok b =>
      have hnone : fault a = none := by
        rw [Option.eq_none_iff_forall_ne_some]
        intro e' he'
        rw [(hf a e').mpr he'] at ha
        cases ha
      rw [hnone, ok_bind, ← ih]
      cases as.mapM f <;> simp

/-- Values that were written one by one are read back one by one. -/
theorem mapM_map_eq_some {f : α → β} {g : β → Option α} {as : List α}
    (h : ∀ a ∈ as, g (f a) = some a) : (as.map f).mapM g = some as := by
  induction as with
  | nil => rfl
  | cons a as ih =>
    obtain ⟨ha, has⟩ := List.forall_mem_cons.mp h
    rw [List.map_cons, List.mapM_cons, ha, ih has]
    rfl

/-- Every error of the call satisfies `P`. -/
def ErrorsIn (P : ε → Prop) (x : Except ε α) : Prop := ∀ e, x = .error e → P e

section ErrorsIn
variable {P : ε → Prop} {x : Except ε α}

@[simp] theorem errorsIn_ok (a : α) : ErrorsIn P (.ok a : Except ε α) := by simp [ErrorsIn]

@[simp] theorem errorsIn_error {e : ε} : ErrorsIn P (.error e : Except ε α) ↔ P e := by
  simp [ErrorsIn]

theorem ErrorsIn.bind_of_ok {f : α → Except ε β} (hx : ErrorsIn P x)
    (hf : ∀ a, x = .ok a → ErrorsIn P (f a)) : ErrorsIn P (x >>= f) := by
  cases x with
  | ok a => exact hf a rfl
  | error e => exact errorsIn_error.mpr (errorsIn_error.mp hx)

theorem ErrorsIn.bind {f : α → Except ε β} (hx : ErrorsIn P x) (hf : ∀ a, ErrorsIn P (f a)) :
    ErrorsIn P (x >>= f) := hx.bind_of_ok fun a _ => hf a

theorem ErrorsIn.map (hx : ErrorsIn P x) (f : α → β) : ErrorsIn P (x.map f) := by
  cases x with
  | ok a => exact errorsIn_ok (f a)
  | error e => exact errorsIn_error.mpr (errorsIn_error.mp hx)

theorem ErrorsIn.mapM_of_mem {f : α → Except ε β} {as : List α} (hf : ∀ a ∈ as, ErrorsIn P (f a)) :
    ErrorsIn P (as.mapM f) := by
  induction as with
  | nil => exact errorsIn_ok []
  | cons a as ih =>
    obtain ⟨ha, has⟩ := List.forall_mem_cons.mp hf
    rw [List.mapM_cons]
    exact ha.bind fun b => (ih has).bind fun bs => errorsIn_ok (b :: bs)

theorem ErrorsIn.mapM {f : α → Except ε β} (hf : ∀ a, ErrorsIn P (f a)) (as : List α) :
    ErrorsIn P (as.mapM f) := mapM_of_mem fun a _ => hf a

theorem ErrorsIn.foldlM {f : β → α → Except ε β} (hf : ∀ b a, ErrorsIn P (f b a)) (b : β)
    (as : List α) : ErrorsIn P (as.foldlM f b) := by
  induction as generalizing b with
  | nil => exact errorsIn_ok b
  | cons a as ih =>
    rw [List.foldlM_cons]
    exact (hf b a).bind ih

end ErrorsIn

theorem mapM_pair_eq_ok {f : α → Except ε β} {as : List α} {xs : List (α × β)}
    (h : (as.mapM fun a => do return (a, ← f a)) = .ok xs) :
    xs.map (·.1) = as ∧ ∀ x ∈ xs, f x.1 = .ok x.2 := by
  have hrel := mapM_eq_ok_iff.mp h
  induction hrel with
  | nil => exact ⟨rfl, fun x hx => by cases hx⟩
  | @cons a x as xs hx hrel ih =>
    obtain ⟨b, hb, heq⟩ := bind_eq_ok_iff.mp hx
    cases heq
    obtain ⟨hkeys, hvalues⟩ := ih (mapM_eq_ok_iff.mpr hrel)
    refine ⟨by rw [List.map_cons, hkeys], fun y hy => ?_⟩
    rcases List.mem_cons.mp hy with rfl | hy
    · exact hb
    · exact hvalues y hy

end FriendLedger
