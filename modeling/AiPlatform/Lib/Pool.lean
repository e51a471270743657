/-
  AiPlatform.Lib.Pool

  Pools of threads over a shared state.

  A program says what one step of a thread does to itself and to what is shared,
  how the surroundings change what is shared, and which threads may come.  Its
  machine makes one such step at a time, in any order.  A thread keeps its place
  in the list for good, so that two threads are told apart by their places.

  `makes_cases` says once what a move of the machine can do; `getElem?_set_iff`
  and `getElem?_push_iff` say which threads there are after it.
-/

import AiPlatform.Lib.Machine

namespace Transition

/-- Threads of type `τ` over a shared state `σ`. -/
structure Pool (σ τ : Type*) where
  shared : σ
  threads : List τ

/-- `κ` is what a step of a thread takes from outside, `ε` what the surroundings
    do.  A step that is not enabled is `none`. -/
structure Program (σ τ κ ε : Type*) where
  act : σ → τ → κ → Option (σ × τ)
  environment : σ → ε → Option σ
  /-- May the thread come in beside these? -/
  admits : σ → List τ → τ → Bool
  /-- What is shared once it has come in. -/
  enter : σ → τ → σ

inductive PoolInput (τ κ ε : Type*) where
  | spawn (thread : τ)
  | step (i : Nat) (choice : κ)
  | environment (event : ε)

variable {σ τ κ ε : Type*}

/-- The machine of a program. -/
def Program.machine (p : Program σ τ κ ε) : Machine (Pool σ τ) (PoolInput τ κ ε) Unit where
  step pool input :=
    match input with
    | .spawn thread =>
        if p.admits pool.shared pool.threads thread then
          some ((), ⟨p.enter pool.shared thread, pool.threads ++ [thread]⟩)
        else none
    | .step i choice =>
        match pool.threads[i]? with
        | none => none
        | some thread =>
            (p.act pool.shared thread choice).map fun next =>
              ((), ⟨next.1, pool.threads.set i next.2⟩)
    | .environment event =>
        (p.environment pool.shared event).map fun shared => ((), ⟨shared, pool.threads⟩)

abbrev PoolMove (σ τ κ ε : Type*) := Move (Pool σ τ) (PoolInput τ κ ε) Unit

namespace Pool

variable {p : Program σ τ κ ε} {x : PoolMove σ τ κ ε}

/-- A thread at its place makes a step. -/
structure Acts (p : Program σ τ κ ε) (x : PoolMove σ τ κ ε) (i : Nat) (choice : κ)
    (thread next : τ) : Prop where
  input : x.input = .step i choice
  found : x.pre.threads[i]? = some thread
  act : p.act x.pre.shared thread choice = some (x.post.shared, next)
  threads : x.post.threads = x.pre.threads.set i next

/-- A move brings a thread, is a step of one, or comes from the surroundings. -/
theorem makes_cases (hx : p.machine.Makes x) :
    (∃ thread, x.input = .spawn thread ∧
        p.admits x.pre.shared x.pre.threads thread = true ∧
        x.post = ⟨p.enter x.pre.shared thread, x.pre.threads ++ [thread]⟩) ∨
      (∃ i choice thread next, Acts p x i choice thread next) ∨
      ∃ event, x.input = .environment event ∧
        p.environment x.pre.shared event = some x.post.shared ∧
        x.post.threads = x.pre.threads := by
  obtain ⟨pre, input, reply, post⟩ := x
  unfold Machine.Makes at hx
  cases input with
  | spawn thread =>
    simp only [Program.machine] at hx
    split at hx
    · rename_i hadmits
      obtain ⟨-, rfl⟩ := Prod.mk.inj (Option.some.inj hx)
      exact .inl ⟨thread, rfl, hadmits, rfl⟩
    · cases hx
  | step i choice =>
    simp only [Program.machine] at hx
    split at hx
    · cases hx
    · rename_i thread hthread
      obtain ⟨⟨shared, next⟩, hact, heq⟩ := Option.map_eq_some_iff.mp hx
      obtain ⟨-, rfl⟩ := Prod.mk.inj heq
      exact .inr (.inl ⟨i, choice, thread, next, ⟨rfl, hthread, hact, rfl⟩⟩)
  | environment event =>
    simp only [Program.machine] at hx
    obtain ⟨shared, hshared, heq⟩ := Option.map_eq_some_iff.mp hx
    obtain ⟨-, rfl⟩ := Prod.mk.inj heq
    exact .inr (.inr ⟨event, rfl, hshared, rfl⟩)

/-- A step that changes neither its thread nor what is shared. -/
theorem Acts.idle {i : Nat} {choice : κ} {thread : τ} (h : Acts p x i choice thread thread)
    (hshared : x.post.shared = x.pre.shared) : x.post = x.pre := by
  obtain ⟨hi, hthread⟩ := List.getElem?_eq_some_iff.mp h.found
  have hthreads : x.post.threads = x.pre.threads := by
    rw [h.threads, ← hthread]
    exact List.set_getElem_self hi
  obtain ⟨⟨shared, threads⟩, input, reply, ⟨shared', threads'⟩⟩ := x
  cases hshared
  cases hthreads
  rfl

/-- The threads after one of them has made a step. -/
theorem getElem?_set_iff {threads : List τ} {i j : Nat} {old next thread : τ}
    (h : threads[i]? = some old) :
    (threads.set i next)[j]? = some thread ↔
      i = j ∧ next = thread ∨ i ≠ j ∧ threads[j]? = some thread := by
  obtain ⟨hi, -⟩ := List.getElem?_eq_some_iff.mp h
  rw [List.getElem?_set]
  by_cases hij : i = j
  · subst hij
    simp [hi]
  · simp [hij]

/-- The threads after one has come in. -/
theorem getElem?_push_iff {threads : List τ} {j : Nat} {new thread : τ} :
    (threads ++ [new])[j]? = some thread ↔
      threads[j]? = some thread ∨ j = threads.length ∧ new = thread := by
  rw [List.getElem?_append]
  by_cases hj : j < threads.length
  · rw [if_pos hj]
    constructor
    · exact .inl
    · rintro (h | ⟨rfl, -⟩)
      · exact h
      · omega
  · rw [if_neg hj, List.getElem?_eq_none (by omega : threads.length ≤ j)]
    rcases Nat.lt_or_eq_of_le (Nat.le_of_not_lt hj) with hlt | heq
    · obtain ⟨k, hk⟩ : ∃ k, j - threads.length = k + 1 := ⟨j - threads.length - 1, by omega⟩
      simp [hk, Nat.ne_of_gt hlt]
    · subst heq
      simp

/-- How many threads meet `q` after one of them has made a step. -/
theorem countP_set {threads : List τ} {i : Nat} {old : τ} (next : τ) (q : τ → Bool)
    (h : threads[i]? = some old) :
    (threads.set i next).countP q + (q old).toNat = threads.countP q + (q next).toNat := by
  obtain ⟨hi, hold⟩ := List.getElem?_eq_some_iff.mp h
  have hle := List.boole_getElem_le_countP (p := q) hi
  rw [List.countP_set hi]
  rw [hold] at hle ⊢
  cases hq : q old <;> cases hnext : q next <;>
    simp only [hq, Bool.toNat_true, Bool.toNat_false, Bool.false_eq_true, if_true, if_false] at hle ⊢ <;>
    omega

end Pool

end Transition
