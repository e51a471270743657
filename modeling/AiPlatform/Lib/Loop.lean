/-
  AiPlatform.Lib.Loop

  A `loop { .. }` whose body either goes round again with a new state or leaves
  with a result.  `loop` runs it for a given number of turns; `Returns` says
  that some number of turns is enough.

  Reasoning about such a loop takes two rules:

  * `Returns.induct` — what every turn preserves, and every exit then has, the
    result has;
  * `exists_returns` — a measure that every further turn lowers makes the loop
    return.

  `Eventually` says the same of a program around such loops: from some number of
  turns on, its result is this one.
-/

import Mathlib.Tactic.Common

namespace AiPlatform.Looping

/-- What one turn of a loop body does. -/
inductive Turn (σ ρ : Type) where
  | again (s : σ)
  | exit (r : ρ)

/-- The loop with body `turn`, cut off after the given number of turns. -/
def loop {σ ρ : Type} (turn : σ → Turn σ ρ) : Nat → σ → Option ρ
  | 0, _ => none
  | n + 1, s =>
      match turn s with
      | .again s' => loop turn n s'
      | .exit r => some r

variable {σ ρ : Type} {turn : σ → Turn σ ρ}

/-- The loop started in `s` leaves with `r`. -/
def Returns (turn : σ → Turn σ ρ) (s : σ) (r : ρ) : Prop :=
  ∃ n, loop turn n s = some r

theorem loop_of_exit {s : σ} {r : ρ} (h : turn s = .exit r) (n : Nat) :
    loop turn (n + 1) s = some r := by
  rw [loop, h]

theorem loop_of_again {s s' : σ} (h : turn s = .again s') (n : Nat) :
    loop turn (n + 1) s = loop turn n s' := by
  rw [loop, h]

/-- More turns than needed change nothing. -/
theorem loop_mono {n m : Nat} {s : σ} {r : ρ} (h : loop turn n s = some r) (hle : n ≤ m) :
    loop turn m s = some r := by
  induction n generalizing m s with
  | zero => cases h
  | succ n ih =>
    obtain ⟨m, rfl⟩ : ∃ k, m = k + 1 := ⟨m - 1, by omega⟩
    cases hturn : turn s with
    | again s' =>
      rw [loop_of_again hturn] at h ⊢
      exact ih h (by omega)
    | exit r' =>
      rw [loop_of_exit hturn] at h ⊢
      exact h

/-- A property of states that every turn preserves, and a property of results
    that every exit from such a state has. -/
theorem Returns.induct {I : σ → Prop} {Q : ρ → Prop}
    (hagain : ∀ s s', I s → turn s = .again s' → I s')
    (hexit : ∀ s r, I s → turn s = .exit r → Q r)
    {s : σ} {r : ρ} (hs : I s) (hr : Returns turn s r) : Q r := by
  obtain ⟨n, hn⟩ := hr
  induction n generalizing s with
  | zero => cases hn
  | succ n ih =>
    cases hturn : turn s with
    | again s' =>
      rw [loop_of_again hturn] at hn
      exact ih (hagain s s' hs hturn) hn
    | exit r' =>
      rw [loop_of_exit hturn] at hn
      cases hn
      exact hexit s r hs hturn

/-- A measure that every further turn from a good state lowers bounds the
    turns the loop takes. -/
theorem exists_returns {I : σ → Prop} (μ : σ → Nat)
    (hagain : ∀ s s', I s → turn s = .again s' → I s' ∧ μ s' < μ s)
    {s : σ} (hs : I s) : ∃ r, Returns turn s r := by
  suffices h : ∀ n s, I s → μ s < n → ∃ r, loop turn n s = some r by
    obtain ⟨r, hr⟩ := h (μ s + 1) s hs (Nat.lt_succ_self _)
    exact ⟨r, _, hr⟩
  intro n
  induction n with
  | zero =>
    intro s _ hlt
    cases hlt
  | succ n ih =>
    intro s hs hlt
    cases hturn : turn s with
    | again s' =>
      obtain ⟨hs', hless⟩ := hagain s s' hs hturn
      rw [loop_of_again hturn]
      exact ih s' hs' (by omega)
    | exit r => exact ⟨r, loop_of_exit hturn n⟩

/-- Some number of turns is enough for the result, and more change nothing. -/
def Eventually {α : Type} (run : Nat → Option α) (r : α) : Prop :=
  ∃ n, ∀ fuel, n ≤ fuel → run fuel = some r

namespace Eventually

variable {α β : Type}

theorem of_returns {s : σ} {r : ρ} (h : Returns turn s r) :
    Eventually (fun fuel => loop turn fuel s) r := by
  obtain ⟨n, hn⟩ := h
  exact ⟨n, fun fuel hle => loop_mono hn hle⟩

theorem of_forall {run : Nat → Option α} {r : α} (h : ∀ fuel, run fuel = some r) :
    Eventually run r :=
  ⟨0, fun fuel _ => h fuel⟩

theorem const {r : α} : Eventually (fun _ => some r) r := of_forall fun _ => rfl

/-- What follows a loop goes on from the loop's result. -/
theorem bind {run : Nat → Option α} {next : Nat → α → Option β} {a : α} {b : β}
    (hrun : Eventually run a) (hnext : Eventually (fun fuel => next fuel a) b) :
    Eventually (fun fuel => (run fuel).bind (next fuel)) b := by
  obtain ⟨n, hn⟩ := hrun
  obtain ⟨m, hm⟩ := hnext
  refine ⟨max n m, fun fuel hle => ?_⟩
  change (run fuel).bind (next fuel) = some b
  rw [hn fuel (Nat.le_trans (Nat.le_max_left n m) hle), Option.bind_some]
  exact hm fuel (Nat.le_trans (Nat.le_max_right n m) hle)

theorem map {run : Nat → Option α} {a : α} (h : Eventually run a) (f : α → β) :
    Eventually (fun fuel => (run fuel).map f) (f a) := by
  obtain ⟨n, hn⟩ := h
  exact ⟨n, fun fuel hle => congrArg (Option.map f) (hn fuel hle)⟩

theorem unique {run : Nat → Option α} {r r' : α} (h : Eventually run r)
    (h' : Eventually run r') : r = r' := by
  obtain ⟨n, hn⟩ := h
  obtain ⟨m, hm⟩ := h'
  have hr := hn (max n m) (Nat.le_max_left n m)
  have hr' := hm (max n m) (Nat.le_max_right n m)
  exact Option.some.inj (hr.symm.trans hr')

end Eventually

end AiPlatform.Looping
