/-
  AiPlatform.Lib.Machine

  Guarded machines and their runs.

  A machine has one executable step function, `none` where an input is not
  enabled.  A run keeps the whole list of its moves, each with the state before
  and after it, so that a statement about a run can speak of two moves in order,
  count the moves of one kind, or put a condition on the state before a move.

  The rules of this file are the ones the developments over it use:

    * `Run.invariant` / `Run.invariant_when` — an invariant kept by every move
      (by every move that meets a condition) holds along the whole run;
    * `Run.history` — an invariant of the moves made so far and the state they led
      to holds of a whole run;
    * `Run.iff_forall`, `Run.forall_iff` — what every move keeps exactly under a
      condition, at the end of the run and all along it;
    * `Run.rel` — a reflexive and transitive relation between the two ends of
      every move relates the two ends of the run;
    * `Run.origin` — what holds at the end held at the start or has a cause
      among the moves;
    * `Run.countP_add_le` — moves that spend are at most what there was to begin
      with and what other moves added; `Run.countP_le_one` — a kind of move that
      uses up what enables it occurs at most once;
    * `Run.fold` — a copy kept by folding what the moves emit stays related to
      the state;
    * `Projection.run` — a machine whose moves are runs of another one.
-/

import Mathlib.Tactic.Common

namespace Transition

/-- A machine over states `σ`, inputs `ι` and replies `ο`. -/
structure Machine (σ ι ο : Type*) where
  step : σ → ι → Option (ο × σ)

/-- One move of a run. -/
structure Move (σ ι ο : Type*) where
  pre : σ
  input : ι
  reply : ο
  post : σ

variable {σ ι ο : Type*} {m : Machine σ ι ο}

/-- `x` is a move the machine can make. -/
def Machine.Makes (m : Machine σ ι ο) (x : Move σ ι ο) : Prop :=
  m.step x.pre x.input = some (x.reply, x.post)

/-- `Run m s tr t`: the moves `tr` lead from `s` to `t`. -/
inductive Run (m : Machine σ ι ο) : σ → List (Move σ ι ο) → σ → Prop
  | nil (s : σ) : Run m s [] s
  | cons {x : Move σ ι ο} {tr : List (Move σ ι ο)} {t : σ}
      (hx : m.Makes x) (rest : Run m x.post tr t) : Run m x.pre (x :: tr) t

/-! ## Cutting and joining runs -/

namespace Run

theorem append {s t u : σ} {tr₁ tr₂ : List (Move σ ι ο)}
    (h₁ : Run m s tr₁ t) (h₂ : Run m t tr₂ u) : Run m s (tr₁ ++ tr₂) u := by
  induction h₁ with
  | nil s => exact h₂
  | cons hx _ ih => exact .cons hx (ih h₂)

/-- A run over `tr₁ ++ tr₂` passes through a middle state. -/
theorem of_append {s u : σ} {tr₁ tr₂ : List (Move σ ι ο)}
    (h : Run m s (tr₁ ++ tr₂) u) : ∃ t, Run m s tr₁ t ∧ Run m t tr₂ u := by
  induction tr₁ generalizing s with
  | nil => exact ⟨s, .nil s, h⟩
  | cons x tr₁ ih =>
      cases h with
      | cons hx rest =>
          obtain ⟨t, h₁, h₂⟩ := ih rest
          exact ⟨t, .cons hx h₁, h₂⟩

/-- The part of a run before a move, the move, and the part after it. -/
theorem of_split {s u : σ} {tr₁ tr₂ : List (Move σ ι ο)} {x : Move σ ι ο}
    (h : Run m s (tr₁ ++ x :: tr₂) u) :
    Run m s tr₁ x.pre ∧ m.Makes x ∧ Run m x.post tr₂ u := by
  obtain ⟨t, h₁, h₂⟩ := of_append h
  cases h₂ with
  | cons hx rest => exact ⟨h₁, hx, rest⟩

/-- Every move of a run is one the machine can make, reached by its prefix. -/
theorem of_mem {s u : σ} {tr : List (Move σ ι ο)} {x : Move σ ι ο}
    (h : Run m s tr u) (hx : x ∈ tr) : ∃ tr₁, Run m s tr₁ x.pre ∧ m.Makes x := by
  obtain ⟨tr₁, tr₂, rfl⟩ := List.append_of_mem hx
  obtain ⟨h₁, hmk, -⟩ := of_split h
  exact ⟨tr₁, h₁, hmk⟩

/-- Moves that leave the state as it was can be left out. -/
theorem filter {p : Move σ ι ο → Bool} {s t : σ} {tr : List (Move σ ι ο)}
    (hidle : ∀ x, m.Makes x → p x = false → x.post = x.pre) (h : Run m s tr t) :
    Run m s (tr.filter p) t := by
  induction h with
  | nil s => exact .nil s
  | @cons x tr t hx _ ih =>
      cases hp : p x with
      | true =>
          rw [List.filter_cons_of_pos hp]
          exact .cons hx ih
      | false =>
          rw [List.filter_cons_of_neg (by simp [hp])]
          exact hidle x hx hp ▸ ih

/-! ## Invariants -/

/-- An invariant kept by every move that meets `C` holds before and after every
    move of a run whose moves all meet `C`, and at its end. -/
theorem invariant_when {C : Move σ ι ο → Prop} {P : σ → Prop} {s t : σ}
    {tr : List (Move σ ι ο)}
    (hstep : ∀ x, m.Makes x → C x → P x.pre → P x.post)
    (h : Run m s tr t) (hC : ∀ x ∈ tr, C x) (hs : P s) :
    (∀ x ∈ tr, P x.pre ∧ P x.post) ∧ P t := by
  induction h with
  | nil s => exact ⟨fun _ hx => absurd hx (List.not_mem_nil), hs⟩
  | @cons x tr t hx _ ih =>
      have hpost : P x.post := hstep x hx (hC x (List.mem_cons_self ..)) hs
      obtain ⟨hmem, ht⟩ := ih (fun y hy => hC y (List.mem_cons_of_mem _ hy)) hpost
      refine ⟨?_, ht⟩
      intro y hy
      rcases List.mem_cons.mp hy with rfl | hy
      · exact ⟨hs, hpost⟩
      · exact hmem y hy

/-- An invariant kept by every move holds at the end of every run. -/
theorem invariant {P : σ → Prop} {s t : σ} {tr : List (Move σ ι ο)}
    (hstep : ∀ x, m.Makes x → P x.pre → P x.post)
    (h : Run m s tr t) (hs : P s) : P t :=
  (invariant_when (C := fun _ => True) (fun x hx _ => hstep x hx) h
    (fun _ _ => trivial) hs).2

/-- An invariant of the moves made so far and of the state they have led to. -/
theorem history {C : Move σ ι ο → Prop} {P : List (Move σ ι ο) → σ → Prop} {s t : σ}
    {tr : List (Move σ ι ο)}
    (hstep : ∀ past x, m.Makes x → C x → P past x.pre → P (past ++ [x]) x.post)
    (h : Run m s tr t) (hC : ∀ x ∈ tr, C x) (hs : P [] s) : P tr t := by
  suffices hall : ∀ past, P past s → P (past ++ tr) t from hall [] hs
  clear hs
  induction h with
  | nil s =>
      intro past hpast
      rwa [List.append_nil]
  | @cons x tr t hx _ ih =>
      intro past hpast
      have hnext := hstep past x hx (hC x (List.mem_cons_self ..)) hpast
      have := ih (fun y hy => hC y (List.mem_cons_of_mem _ hy)) (past ++ [x]) hnext
      rwa [List.append_assoc, List.singleton_append] at this

/-- What every move keeps exactly when it meets `C` is there at the end of a run when
    it was there at the start and every move meets `C`. -/
theorem iff_forall {C : Move σ ι ο → Prop} {P Q : σ → Prop} {s t : σ} {tr : List (Move σ ι ο)}
    (hP : ∀ x, m.Makes x → P x.pre → P x.post)
    (hQ : ∀ x, m.Makes x → P x.pre → (Q x.post ↔ Q x.pre ∧ C x))
    (h : Run m s tr t) (hs : P s) : Q t ↔ Q s ∧ ∀ x ∈ tr, C x := by
  induction h with
  | nil s => exact ⟨fun hq => ⟨hq, fun _ hx => absurd hx List.not_mem_nil⟩, And.left⟩
  | cons hx _ ih => rw [ih (hP _ hx hs), hQ _ hx hs, List.forall_mem_cons, and_assoc]

/-- When a move keeps `Q` exactly if it meets `C`, every move of a run ends in `Q` exactly
    if every move meets `C`.  The invariant `P` may lean on `Q`. -/
theorem forall_iff {C : Move σ ι ο → Prop} {P Q : σ → Prop} {s t : σ} {tr : List (Move σ ι ο)}
    (hP : ∀ x, m.Makes x → P x.pre → Q x.pre → P x.post)
    (hQ : ∀ x, m.Makes x → P x.pre → Q x.pre → (Q x.post ↔ C x))
    (h : Run m s tr t) (hs : P s) (hq : Q s) : (∀ x ∈ tr, Q x.post) ↔ ∀ x ∈ tr, C x := by
  induction h with
  | nil s => exact iff_of_true (fun _ hx => absurd hx List.not_mem_nil) fun _ hx => absurd hx List.not_mem_nil
  | cons hx _ ih =>
      rw [List.forall_mem_cons, List.forall_mem_cons, ← hQ _ hx hs hq]
      exact and_congr_right fun hpost => ih (hP _ hx hs hq) hpost

/-- A reflexive and transitive relation kept by every move from a state in `P`
    relates the ends of a run that starts in `P`. -/
theorem rel {P : σ → Prop} {R : σ → σ → Prop} {s t : σ} {tr : List (Move σ ι ο)}
    (hrefl : ∀ s, R s s) (htrans : ∀ {a b c}, R a b → R b c → R a c)
    (hP : ∀ x, m.Makes x → P x.pre → P x.post)
    (hR : ∀ x, m.Makes x → P x.pre → R x.pre x.post)
    (h : Run m s tr t) (hs : P s) : R s t := by
  induction h with
  | nil s => exact hrefl s
  | cons hx _ ih => exact htrans (hR _ hx hs) (ih (hP _ hx hs))

/-- What holds at the end of a run held at its start, or one of its moves is a
    cause of it. -/
theorem origin {Q : σ → Prop} {C : Move σ ι ο → Prop} {s t : σ}
    {tr : List (Move σ ι ο)}
    (hback : ∀ x, m.Makes x → Q x.post → Q x.pre ∨ C x)
    (h : Run m s tr t) (ht : Q t) : Q s ∨ ∃ x ∈ tr, C x := by
  induction h with
  | nil s => exact .inl ht
  | @cons x tr t hx _ ih =>
      rcases ih ht with hpost | ⟨y, hy, hcause⟩
      · rcases hback x hx hpost with hpre | hcause
        · exact .inl hpre
        · exact .inr ⟨x, List.mem_cons_self .., hcause⟩
      · exact .inr ⟨y, List.mem_cons_of_mem _ hy, hcause⟩

/-- A copy that folds what each move emits stays related to the state. -/
theorem fold {γ ε : Type*} {f : γ → ε → γ} {R : σ → γ → Prop}
    {E : Move σ ι ο → List ε → Prop} {s t : σ} {tr : List (Move σ ι ο)} {logs : List (List ε)}
    {c : γ} (hstep : ∀ x es c, m.Makes x → E x es → R x.pre c → R x.post (es.foldl f c))
    (h : Run m s tr t) (hlogs : List.Forall₂ E tr logs) (hs : R s c) :
    R t (logs.flatten.foldl f c) := by
  induction h generalizing logs c with
  | nil s =>
      cases hlogs
      exact hs
  | cons hx _ ih =>
      cases hlogs with
      | cons hemit hrest =>
          rw [List.flatten_cons, List.foldl_append]
          exact ih hrest (hstep _ _ _ hx hemit hs)

/-! ## Counting moves -/

/-- A `p` move takes one from `φ`, and only a `q` move adds one: a run makes at
    most as many `p` moves as it started with and `q` moves added. -/
theorem countP_add_le {φ : σ → Nat} {p q : Move σ ι ο → Bool} {s t : σ}
    {tr : List (Move σ ι ο)}
    (hstep : ∀ x, m.Makes x →
      (p x).toNat + φ x.post ≤ φ x.pre + (q x).toNat)
    (h : Run m s tr t) :
    tr.countP p + φ t ≤ φ s + tr.countP q := by
  induction h with
  | nil s => simp
  | @cons x tr t hx _ ih =>
      have := hstep x hx
      have hcp : (x :: tr).countP p = tr.countP p + (p x).toNat := by
        cases hp : p x <;> simp [hp]
      have hcq : (x :: tr).countP q = tr.countP q + (q x).toNat := by
        cases hq : q x <;> simp [hq]
      rw [hcp, hcq]
      omega

/-- A marked move uses up what marked moves need: it occurs at most once. -/
theorem countP_le_one {p : Move σ ι ο → Bool} {F : σ → Bool} {s t : σ} {tr : List (Move σ ι ο)}
    (hmark : ∀ x, m.Makes x → p x = true → F x.pre = true ∧ F x.post = false)
    (hback : ∀ x, m.Makes x → F x.post = true → F x.pre = true)
    (h : Run m s tr t) : tr.countP p ≤ 1 := by
  have hle := countP_add_le (φ := fun s => (F s).toNat) (p := p)
    (q := fun _ => false) ?_ h
  · have hs : (F s).toNat ≤ 1 := Bool.toNat_le _
    have hz : tr.countP (fun _ => false) = 0 := by simp
    omega
  · intro x hx
    cases hm : p x with
    | true =>
        obtain ⟨hpre, hpost⟩ := hmark x hx hm
        simp [hpre, hpost]
    | false =>
        cases hp : F x.post with
        | true => simp [hback x hx hp]
        | false => simp

end Run

/-! ## Running a list of inputs -/

/-- Feed the inputs in order; `none` when one of them is not enabled. -/
def Machine.exec (m : Machine σ ι ο) : σ → List ι → Option (List (Move σ ι ο) × σ)
  | s, [] => some ([], s)
  | s, i :: is =>
      match m.step s i with
      | none => none
      | some (o, t) =>
          match m.exec t is with
          | none => none
          | some (tr, u) => some (⟨s, i, o, t⟩ :: tr, u)

/-- What `exec` returns is a run. -/
theorem Machine.run_of_exec {s u : σ} {is : List ι} {tr : List (Move σ ι ο)}
    (h : m.exec s is = some (tr, u)) : Run m s tr u := by
  induction is generalizing s tr with
  | nil =>
      simp only [Machine.exec, Option.some.injEq, Prod.mk.injEq] at h
      obtain ⟨rfl, rfl⟩ := h
      exact .nil s
  | cons i is ih =>
      simp only [Machine.exec] at h
      split at h
      · exact absurd h (by simp)
      · rename_i o t hstep
        split at h
        · exact absurd h (by simp)
        · rename_i tr' u' hrest
          simp only [Option.some.injEq, Prod.mk.injEq] at h
          obtain ⟨rfl, rfl⟩ := h
          exact .cons (x := ⟨s, i, o, t⟩) hstep (ih hrest)

/-- The moves are made on the inputs, in order. -/
theorem Machine.inputs_of_exec {s u : σ} {is : List ι} {tr : List (Move σ ι ο)}
    (h : m.exec s is = some (tr, u)) : tr.map Move.input = is := by
  induction is generalizing s tr with
  | nil =>
      simp only [Machine.exec, Option.some.injEq, Prod.mk.injEq] at h
      obtain ⟨rfl, _⟩ := h
      rfl
  | cons i is ih =>
      simp only [Machine.exec] at h
      split at h
      · exact absurd h (by simp)
      · split at h
        · exact absurd h (by simp)
        · rename_i hrest
          simp only [Option.some.injEq, Prod.mk.injEq] at h
          obtain ⟨rfl, rfl⟩ := h
          rw [List.map_cons, ih hrest]

/-- A check that passes on what `exec` returns passes on a run over the inputs. -/
theorem Machine.exists_run (m : Machine σ ι ο) (s : σ) (is : List ι)
    (p : List (Move σ ι ο) → σ → Bool)
    (h : (m.exec s is).any (fun out => p out.1 out.2) = true) :
    ∃ tr t, Run m s tr t ∧ tr.map Move.input = is ∧ p tr t = true := by
  cases hexec : m.exec s is with
  | none => simp [hexec] at h
  | some out =>
      obtain ⟨tr, t⟩ := out
      rw [hexec] at h
      exact ⟨tr, t, m.run_of_exec hexec, m.inputs_of_exec hexec, h⟩

/-! ## A machine over another one -/

/-- `m` works over `n`: through `proj`, each of its moves is a run of `n`. -/
structure Projection {τ κ π : Type*} (m : Machine σ ι ο) (n : Machine τ κ π) where
  proj : σ → τ
  moves : Move σ ι ο → List (Move τ κ π)
  run_moves : ∀ x, m.Makes x → Run n (proj x.pre) (moves x) (proj x.post)

/-- A run of the machine above is a run of the machine below. -/
theorem Projection.run {τ κ π : Type*} {n : Machine τ κ π} (p : Projection m n)
    {s t : σ} {tr : List (Move σ ι ο)} (h : Run m s tr t) :
    Run n (p.proj s) (tr.flatMap p.moves) (p.proj t) := by
  induction h with
  | nil s => exact .nil _
  | cons hx _ ih =>
      rw [List.flatMap_cons]
      exact (p.run_moves _ hx).append ih

end Transition
