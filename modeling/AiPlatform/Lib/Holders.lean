/-
  AiPlatform.Lib.Holders

  Counters of what the threads of a pool hold.

  Each thread holds some keys, each at most once, and a counter is kept for every
  key.  `Handover` says what a step of a thread may do to both; `holders_set` that
  the counters then still count the holders, and `Handover.le` that they stay
  within their limits.
-/

import AiPlatform.Lib.Pool

namespace Transition

variable {κ τ : Type*} [DecidableEq κ]

/-- How many threads hold the key. -/
def holders (held : τ → List κ) (threads : List τ) (key : κ) : Nat :=
  threads.countP fun thread => decide (key ∈ held thread)

/-- A thread keeps what it holds, takes a key that has room, or gives its last one back. -/
inductive Handover (limit : κ → Int) (count : κ → Nat) (held : List κ) (count' : κ → Nat)
    (held' : List κ) : Prop
  | keeps (hcount : count' = count) (hheld : held' = held)
  | takes (key : κ) (fresh : key ∉ held) (room : (count key : Int) < limit key)
      (hcount : count' = Function.update count key (count key + 1)) (hheld : held' = key :: held)
  | gives (key : κ) (once : key ∉ held')
      (hcount : count' = Function.update count key (count key - 1)) (hheld : held = key :: held')

namespace Handover

variable {limit : κ → Int} {count count' : κ → Nat} {held held' : List κ}

theorem le (h : Handover limit count held count' held') (hle : ∀ key, (count key : Int) ≤ limit key)
    (key : κ) : (count' key : Int) ≤ limit key := by
  cases h with
  | keeps hcount hheld =>
    rw [hcount]
    exact hle key
  | takes taken fresh room hcount hheld =>
    rw [hcount]
    by_cases heq : key = taken
    · subst heq
      rw [Function.update_self]
      omega
    · rw [Function.update_of_ne heq]
      exact hle key
  | gives given once hcount hheld =>
    rw [hcount]
    have hkey := hle key
    by_cases heq : key = given
    · subst heq
      rw [Function.update_self]
      omega
    · rw [Function.update_of_ne heq]
      exact hkey

/-- A counter goes with whether the thread holds its key. -/
theorem count_add (h : Handover limit count held count' held') (hpos : ∀ key ∈ held, 0 < count key)
    (key : κ) :
    count' key + (decide (key ∈ held)).toNat = count key + (decide (key ∈ held')).toNat := by
  cases h with
  | keeps hcount hheld => rw [hcount, hheld]
  | takes taken fresh room hcount hheld =>
    rw [hcount, hheld]
    by_cases heq : key = taken
    · subst heq
      simp [fresh]
    · simp [heq]
  | gives given once hcount hheld =>
    rw [hcount]
    by_cases heq : key = given
    · subst heq
      have hkey := hpos key (hheld ▸ List.mem_cons_self ..)
      simp only [hheld, once, Function.update_self, List.mem_cons, true_or, decide_true, decide_false,
        Bool.toNat_true, Bool.toNat_false]
      omega
    · simp [hheld, heq]

end Handover

variable {held : τ → List κ} {threads : List τ} {count count' : κ → Nat} {limit : κ → Int}

theorem holders_pos {thread : τ} (hmem : thread ∈ threads) {key : κ} (hheld : key ∈ held thread) :
    0 < holders held threads key :=
  List.countP_pos_iff.mpr ⟨thread, hmem, decide_eq_true hheld⟩

/-- The counters count the holders after a step of a thread. -/
theorem holders_set {i : Nat} {old next : τ} (hfound : threads[i]? = some old)
    (hcount : ∀ key, count key = holders held threads key)
    (h : Handover limit count (held old) count' (held next)) (key : κ) :
    count' key = holders held (threads.set i next) key := by
  have hset := Pool.countP_set next (fun thread => decide (key ∈ held thread)) hfound
  have hadd := h.count_add
    (fun taken htaken => hcount taken ▸ holders_pos (List.mem_of_getElem? hfound) htaken) key
  have hkey := hcount key
  unfold holders at hkey ⊢
  omega

/-- A thread that comes in holds nothing. -/
theorem holders_push {new : τ} (hnew : held new = []) (key : κ) :
    holders held (threads ++ [new]) key = holders held threads key := by
  simp [holders, hnew]

end Transition
