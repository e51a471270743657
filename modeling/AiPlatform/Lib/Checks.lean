/-
  AiPlatform.Lib.Checks

  Straight-line validation in `Except`: a chain of checks of which the first
  that fails gives the error.  The rules say when such a chain succeeds, one
  link at a time.

  `Decides` says more of a check: it succeeds exactly when a proposition holds, and
  where it fails, the error is one of those a rejection may have.  It goes along a
  chain and through a loop, so that what a validator decides is read off its text.
-/

import Mathlib.Tactic.Common

namespace AiPlatform.Checks

/-- `if bad { return Err(error) }` -/
def failIf {ε : Type} (bad : Bool) (error : ε) : Except ε Unit :=
  if bad then .error error else .ok ()

/-- `x.ok_or(error)?` -/
def okOr {ε α : Type} (x : Option α) (error : ε) : Except ε α :=
  match x with
  | some a => .ok a
  | none => .error error

/-- `if asked { check? }` -/
def checkIf {ε : Type} (asked : Bool) (check : Except ε Unit) : Except ε Unit :=
  if asked then check else .ok ()

/-- `if let Some(a) = found { check(a)? }` -/
def checkSome {ε α : Type} (found : Option α) (check : α → Except ε Unit) : Except ε Unit :=
  match found with
  | some a => check a
  | none => .ok ()

/-- `for x in xs { check(x)? }` -/
def forEach {ε α : Type} : List α → (α → Except ε Unit) → Except ε Unit
  | [], _ => .ok ()
  | x :: xs, check => check x >>= fun _ => forEach xs check

variable {ε ε' α β : Type}

@[simp] theorem failIf_eq_ok {bad : Bool} {error : ε} {u : Unit} :
    failIf bad error = .ok u ↔ bad = false := by
  cases bad <;> simp [failIf]

/-- A chain succeeds when its first link does and the rest does with its value. -/
theorem bind_eq_ok {x : Except ε α} {f : α → Except ε β} {b : β} :
    (x >>= f) = .ok b ↔ ∃ a, x = .ok a ∧ f a = .ok b := by
  cases x with
  | error e => simp [bind, Except.bind]
  | ok a => simp [bind, Except.bind]

/-- A chain fails where one of its links does, the links before it being passed. -/
theorem bind_eq_error {x : Except ε α} {f : α → Except ε β} {e : ε} :
    (x >>= f) = .error e ↔ x = .error e ∨ ∃ a, x = .ok a ∧ f a = .error e := by
  cases x with
  | error e => simp [bind, Except.bind]
  | ok a => simp [bind, Except.bind]

theorem ok_ne_error {a : α} {e : ε} : (Except.ok a : Except ε α) ≠ .error e := by
  intro h
  cases h

@[simp] theorem mapError_eq_ok {x : Except ε α} {f : ε → ε'} {a : α} :
    x.mapError f = .ok a ↔ x = .ok a := by
  cases x <;> simp [Except.mapError]

theorem pure_eq_ok {a b : α} : (pure a : Except ε α) = .ok b ↔ a = b := by
  simp [pure, Except.pure]

theorem exists_ok_of_isOk {x : Except ε α} (h : x.isOk = true) : ∃ a, x = .ok a := by
  cases x with
  | error e => cases h
  | ok a => exact ⟨a, rfl⟩

theorem discard_eq_ok {x : Except ε α} {u : PUnit} : discard x = .ok u ↔ ∃ a, x = .ok a := by
  cases x with
  | error e => exact ⟨nofun, nofun⟩
  | ok a => exact ⟨fun _ => ⟨a, rfl⟩, fun _ => rfl⟩

@[simp] theorem okOr_eq_ok {x : Option α} {error : ε} {a : α} :
    okOr x error = .ok a ↔ x = some a := by
  cases x <;> simp [okOr]

/-- A chain that goes on with what was there. -/
theorem okOr_bind_eq_ok {x : Option α} {error : ε} {f : α → Except ε β} {b : β} :
    (okOr x error >>= f) = .ok b ↔ ∃ a, x = some a ∧ f a = .ok b := by
  simp only [bind_eq_ok, okOr_eq_ok]

theorem then_eq_ok {x y : Except ε Unit} :
    (x >>= fun _ => y) = .ok () ↔ x = .ok () ∧ y = .ok () := by
  rw [bind_eq_ok]
  exact ⟨fun ⟨_, hx, hy⟩ => ⟨hx, hy⟩, fun ⟨hx, hy⟩ => ⟨(), hx, hy⟩⟩

theorem checkSome_eq_ok {found : Option α} {check : α → Except ε Unit} :
    checkSome found check = .ok () ↔ ∀ a, found = some a → check a = .ok () := by
  cases found <;> simp [checkSome]

theorem forEach_eq_ok {xs : List α} {check : α → Except ε Unit} :
    forEach xs check = .ok () ↔ ∀ x ∈ xs, check x = .ok () := by
  induction xs with
  | nil => simp [forEach]
  | cons x xs ih => rw [forEach, then_eq_ok, ih, List.forall_mem_cons]

/-! ## Checks that decide -/

/-- The check succeeds exactly when the proposition holds, and fails with an error
    of a rejection. -/
structure Decides (rejects : ε → Prop) (check : Except ε Unit) (p : Prop) : Prop where
  ok_iff : check = .ok () ↔ p
  error : ∀ e, check = .error e → rejects e

namespace Decides

variable {rejects : ε → Prop} {check check' : Except ε Unit} {p q : Prop}

theorem congr (h : Decides rejects check p) (hiff : p ↔ q) : Decides rejects check q :=
  ⟨h.ok_iff.trans hiff, h.error⟩

theorem ok (hp : p) : Decides rejects (.ok ()) p :=
  ⟨iff_of_true rfl hp, nofun⟩

theorem failIf {bad : Bool} {e : ε} (he : rejects e) :
    Decides rejects (failIf bad e) (bad = false) := by
  refine ⟨failIf_eq_ok, fun e' h => ?_⟩
  cases bad with
  | false => cases h
  | true => exact Except.error.inj h ▸ he

/-- The second check need only decide where the first has succeeded. -/
theorem andThen (h : Decides rejects check p) (h' : p → Decides rejects check' q) :
    Decides rejects (check >>= fun _ => check') (p ∧ q) := by
  cases hcheck : check with
  | error e =>
    have hnot : ¬ p := fun hp => by
      rw [h.ok_iff.mpr hp] at hcheck
      cases hcheck
    refine ⟨iff_of_false nofun fun hpq => hnot hpq.1, fun e' he => ?_⟩
    obtain rfl : e = e' := Except.error.inj he
    exact h.error e hcheck
  | ok u =>
    have hp : p := h.ok_iff.mp hcheck
    exact ⟨(h' hp).ok_iff.trans (and_iff_right hp).symm, (h' hp).error⟩

theorem checkIf {asked : Bool} (h : asked = true → Decides rejects check p) :
    Decides rejects (checkIf asked check) (asked = true → p) := by
  cases asked with
  | false => exact .ok nofun
  | true => exact (h rfl).congr ⟨fun hp _ => hp, fun hp => hp rfl⟩

theorem checkSome {found : Option α} {check : α → Except ε Unit} {p : α → Prop}
    (h : ∀ a, found = some a → Decides rejects (check a) (p a)) :
    Decides rejects (checkSome found check) (∀ a, found = some a → p a) := by
  cases found with
  | none => exact .ok nofun
  | some a =>
    refine (h a rfl).congr ⟨fun hp b hb => ?_, fun hp => hp a rfl⟩
    obtain rfl := Option.some.inj hb
    exact hp

/-- Such a check can be asked for as a condition on another. -/
theorem isOk_iff (h : Decides rejects check p) : check.isOk = true ↔ p := by
  rw [← h.ok_iff]
  cases check with
  | error e => exact ⟨nofun, nofun⟩
  | ok u => exact iff_of_true rfl rfl

theorem forEach {xs : List α} {check : α → Except ε Unit} {p : α → Prop}
    (h : ∀ x ∈ xs, Decides rejects (check x) (p x)) :
    Decides rejects (forEach xs check) (∀ x ∈ xs, p x) := by
  induction xs with
  | nil => exact .ok nofun
  | cons x xs ih =>
    have hx := h x List.mem_cons_self
    have hxs := ih fun y hy => h y (List.mem_cons_of_mem _ hy)
    exact (hx.andThen fun _ => hxs).congr List.forall_mem_cons.symm

end Decides

end AiPlatform.Checks
