/-
  AiPlatform.Dispatch.WindowAgreement

  The deques in memory and the sorted sets in Redis, asked the same in the same
  order.

  They decide alike as long as no call asks for one key twice, every key is always
  asked with the same window, and no request has been recorded at the very start of
  the window of a call: the deque still counts such a request, the script has
  removed it.
-/

import AiPlatform.Lib.Machine
import AiPlatform.Dispatch.SlidingWindow
import Mathlib.Tactic.Linarith

namespace AiPlatform.Dispatch

open Transition Redis

/-! ## The two limiters -/

/-- A batch of policies over one window, checked for a request with its own id. -/
structure WindowCall where
  now : ℚ
  window : Window
  member : String
  policies : List Policy

structure WindowStores where
  now : ℚ
  members : List String
  requests : Requests
  db : WindowDb

/-- What is decided about each policy, and how much remains. -/
def decisions (results : List RateLimitResult) : List (Bool × Int) :=
  results.map fun result => (result.allowed, result.remaining)

/-- The same calls go to both limiters, at instants that do not go back and with ids
    that are not used again. -/
def windowStores : Machine WindowStores WindowCall (List RateLimitResult × List RateLimitResult) where
  step s call :=
    if s.now ≤ call.now ∧ call.member ∉ s.members then
      let (inMemory, requests) :=
        untilDenied (memorySlidingWindow call.now call.window) call.policies s.requests
      let (inRedis, db) := redisSlidingWindowMany call.now call.window call.member call.policies s.db
      some ((inMemory, inRedis), ⟨call.now, call.member :: s.members, requests, db⟩)
    else none

def WindowStores.new : WindowStores := ⟨0, [], fun _ => [], .empty⟩

/-- The call asks for no key twice, for each key with its own window, and finds no request
    at the start of the window, unless the key is at its limit without it. -/
structure Comparable (windowOf : String → Window)
    (x : Move WindowStores WindowCall (List RateLimitResult × List RateLimitResult)) : Prop where
  keys : (x.input.policies.map Policy.key).Nodup
  window : ∀ policy ∈ x.input.policies, x.input.window = windowOf policy.key
  boundary : ∀ policy ∈ x.input.policies,
    windowStart x.input.now x.input.window ∉ x.pre.requests policy.key ∨
      policy.limit ≤ ((x.pre.requests policy.key).countP
        fun timestamp => windowStart x.input.now x.input.window < timestamp : Nat)

instance (windowOf : String → Window)
    (x : Move WindowStores WindowCall (List RateLimitResult × List RateLimitResult)) :
    Decidable (Comparable windowOf x) :=
  decidable_of_iff
    ((x.input.policies.map Policy.key).Nodup ∧
      (∀ policy ∈ x.input.policies, x.input.window = windowOf policy.key) ∧
      ∀ policy ∈ x.input.policies, windowStart x.input.now x.input.window ∉ x.pre.requests policy.key ∨
        policy.limit ≤ ((x.pre.requests policy.key).countP
          fun timestamp => windowStart x.input.now x.input.window < timestamp : Nat))
    ⟨fun ⟨keys, window, boundary⟩ => ⟨keys, window, boundary⟩,
      fun ⟨keys, window, boundary⟩ => ⟨keys, window, boundary⟩⟩

/-! ## What the stores have in common -/

section Agreement

variable {windowOf : String → Window} {now later start : ℚ} {window : Window} {member key : String}
  {requests : Requests} {db : WindowDb} {policy : Policy} {timestamps : List ℚ}
  {set : SortedSet String ℚ}

/-- Whatever the start of a later window, as many requests are after it in memory as in
    Redis. -/
structure InStep (windowOf : String → Window) (now : ℚ) (requests : Requests) (db : WindowDb) : Prop where
  sorted : ∀ key, (requests key).Pairwise (· ≤ ·)
  past : ∀ key, ∀ timestamp ∈ requests key, timestamp ≤ now
  nonneg : ∀ key, ∀ entry ∈ (db.sets key).entries, 0 ≤ entry.2
  counts : ∀ key later start, now ≤ later → windowStart later (windowOf key) ≤ start →
    (db.read later key).entries.countP (fun entry => start < entry.2) =
      (requests key).countP fun timestamp => start < timestamp

theorem inStep_new : InStep windowOf 0 (fun _ => []) .empty where
  sorted _ := List.Pairwise.nil
  past _ _ := nofun
  nonneg _ _ := nofun
  counts _ _ _ _ _ := rfl

/-- Removing from the front of a sorted deque removes what is below. -/
theorem dropWhile_lt (h : timestamps.Pairwise (· ≤ ·)) :
    (timestamps.dropWhile fun timestamp => timestamp < start) =
      timestamps.filter fun timestamp => start ≤ timestamp := by
  induction timestamps with
  | nil => rfl
  | cons earliest rest ih =>
    obtain ⟨hfirst, hrest⟩ := List.pairwise_cons.mp h
    by_cases hlt : earliest < start
    · rw [List.dropWhile_cons_of_pos (by simpa using hlt), List.filter_cons_of_neg (by simpa using hlt),
        ih hrest]
    · have hle : start ≤ earliest := not_lt.mp hlt
      rw [List.dropWhile_cons_of_neg (by simpa using hle), eq_comm, List.filter_eq_self]
      intro timestamp hmem
      rcases List.mem_cons.mp hmem with rfl | hmem
      · exact decide_eq_true hle
      · exact decide_eq_true (le_trans hle (hfirst timestamp hmem))

theorem windowStart_lt : windowStart now window < now :=
  sub_lt_self now (Nat.cast_pos.mpr window.2)

theorem windowStart_mono (h : now ≤ later) : windowStart now window ≤ windowStart later window :=
  sub_le_sub_right h _

/-- What is after a later start is among what was kept. -/
theorem countP_filter_of_le (h : windowStart now window ≤ start) :
    (timestamps.filter fun timestamp => windowStart now window ≤ timestamp).countP
        (fun timestamp => start < timestamp) =
      timestamps.countP fun timestamp => start < timestamp := by
  rw [List.countP_filter]
  refine List.countP_congr fun timestamp _ => ?_
  simp only [Bool.and_eq_true, decide_eq_true_eq, and_iff_left_iff_imp]
  exact fun hlt => le_trans h hlt.le

theorem countP_removeRange_of_le (h : windowStart now window ≤ start) :
    (set.removeRange 0 (windowStart now window)).entries.countP (fun entry => start < entry.2) =
      set.entries.countP fun entry => start < entry.2 := by
  rw [SortedSet.removeRange, SortedSet.filter, List.countP_filter]
  refine List.countP_congr fun entry hmem => ?_
  simp only [Bool.and_eq_true, decide_eq_true_eq, Bool.not_eq_true', Bool.and_eq_false_iff,
    decide_eq_false_iff_not, and_iff_left_iff_imp, not_le]
  exact fun hlt => .inr (lt_of_le_of_lt h hlt)

/-- The script counts what is after the start of the window. -/
theorem card_removeRange_windowStart (hnonneg : ∀ entry ∈ set.entries, 0 ≤ entry.2) :
    (set.removeRange 0 (windowStart now window)).card =
      set.entries.countP fun entry => windowStart now window < entry.2 := by
  rw [SortedSet.card_removeRange]
  refine List.countP_congr fun entry hmem => ?_
  simp [hnonneg entry hmem]

/-- Changing what is under one key keeps the rest in step. -/
theorem InStep.update {q : List ℚ} {db' : WindowDb} {now' : ℚ} (h : InStep windowOf now requests db)
    (hclock : now ≤ now') (hsorted : q.Pairwise (· ≤ ·)) (hpast : ∀ timestamp ∈ q, timestamp ≤ now')
    (hread : ∀ other, key ≠ other → ∀ later, db'.read later other = db.read later other)
    (hsets : ∀ other, key ≠ other → db'.sets other = db.sets other)
    (hnonneg : ∀ entry ∈ (db'.sets key).entries, 0 ≤ entry.2)
    (hcounts : ∀ later start, now' ≤ later → windowStart later (windowOf key) ≤ start →
      (db'.read later key).entries.countP (fun entry => start < entry.2) =
        q.countP fun timestamp => start < timestamp) :
    InStep windowOf now' (Function.update requests key q) db' where
  sorted other := by
    by_cases hkey : key = other
    · subst hkey
      rw [Function.update_self]
      exact hsorted
    · rw [Function.update_of_ne (Ne.symm hkey)]
      exact h.sorted other
  past other := by
    by_cases hkey : key = other
    · subst hkey
      rw [Function.update_self]
      exact hpast
    · rw [Function.update_of_ne (Ne.symm hkey)]
      exact fun timestamp hmem => le_trans (h.past other timestamp hmem) hclock
  nonneg other := by
    by_cases hkey : key = other
    · subst hkey
      exact hnonneg
    · rw [hsets other hkey]
      exact h.nonneg other
  counts other later start hlater hstart := by
    by_cases hkey : key = other
    · subst hkey
      rw [Function.update_self]
      exact hcounts later start hlater hstart
    · rw [Function.update_of_ne (Ne.symm hkey), hread other hkey]
      exact h.counts other later start (le_trans hclock hlater) hstart

variable (key) in
/-- What was below the window goes, and nothing else. -/
theorem InStep.prune {now' : ℚ} (h : InStep windowOf now requests db) (hclock : now ≤ now') :
    InStep windowOf now'
      (Function.update requests key
        ((requests key).filter fun timestamp => windowStart now' (windowOf key) ≤ timestamp))
      (db.modify now' key (.removeRange 0 (windowStart now' (windowOf key)))) := by
  refine h.update hclock ((h.sorted key).filter _) ?_
    (fun other hne later => SortedSets.read_modify_of_ne hne) (fun other hne => if_neg hne) ?_ ?_
  · intro timestamp hmem
    exact le_trans (h.past key timestamp (List.mem_of_mem_filter hmem)) hclock
  · intro entry hmem
    rw [SortedSets.sets_modify] at hmem
    exact h.nonneg key entry (SortedSets.read_subset _ (SortedSet.removeRange_subset _ hmem))
  · intro later start hlater hstart
    have hstart' : windowStart now' (windowOf key) ≤ start := le_trans (windowStart_mono hlater) hstart
    rw [countP_filter_of_le hstart']
    rcases @SortedSets.read_modify_later _ _ _ _ _ db now' later key
      (.removeRange 0 (windowStart now' (windowOf key))) _ with hread | ⟨hread, hempty⟩
    · rw [hread, countP_removeRange_of_le hstart']
      exact h.counts key now' start hclock hstart'
    · rw [hread, ← h.counts key later start (le_trans hclock hlater) hstart, hempty]

variable (key) in
/-- The request is recorded on both sides. -/
theorem InStep.record (h : InStep windowOf now requests db) (htime : 0 ≤ now)
    (hfresh : ∀ entry ∈ (db.sets key).entries, entry.1 ≠ member) :
    InStep windowOf now (Function.update requests key (requests key ++ [now]))
      ((db.modify now key (.add member now)).expire key (now + ((windowOf key).val + 1))) := by
  have hpast : ∀ timestamp ∈ requests key ++ [now], timestamp ≤ now := by
    intro timestamp hmem
    rcases List.mem_append.mp hmem with hmem | hmem
    · exact h.past key timestamp hmem
    · exact le_of_eq (List.mem_singleton.mp hmem)
  have hadded : ((db.modify now key (.add member now)).expire key
      (now + ((windowOf key).val + 1))).sets key = (db.read now key).add member now :=
    SortedSets.sets_modify
  have hmember : ∀ value, (member, value) ∉ (db.read now key).entries :=
    fun value hmem => hfresh _ (SortedSets.read_subset _ hmem) rfl
  refine h.update (le_refl _) ?_ hpast
    (fun other hne later => by rw [SortedSets.read_expire_of_ne hne, SortedSets.read_modify_of_ne hne])
    (fun other hne => if_neg hne) ?_ ?_
  · refine List.pairwise_append.mpr ⟨h.sorted key, List.pairwise_singleton .., ?_⟩
    intro timestamp hmem last hlast
    rw [List.mem_singleton.mp hlast]
    exact h.past key timestamp hmem
  · rw [hadded]
    intro entry hmem
    rcases SortedSet.mem_add.mp hmem with rfl | ⟨hold, -⟩
    · exact htime
    · exact h.nonneg key entry (SortedSets.read_subset _ hold)
  · intro later start hlater hstart
    rw [SortedSets.read_expire_self]
    split
    · rw [SortedSets.sets_modify, SortedSet.countP_add_of_not_mem hmember, List.countP_append,
        h.counts key now start (le_refl _) (le_trans (windowStart_mono hlater) hstart),
        List.countP_singleton]
    · -- The key has expired: every request under it is too old for any window.
      rename_i hexpired
      have hold : now < start := by
        have hpassed : now + ((windowOf key).val + 1) ≤ later := not_lt.mp hexpired
        rw [windowStart] at hstart
        linarith
      refine (List.countP_eq_zero.mpr fun timestamp hmem => ?_).symm
      simpa using le_trans (hpast timestamp hmem) hold.le

/-- One policy is decided alike, and only its key is touched. -/
theorem InStep.check {now' : ℚ} (h : InStep windowOf now requests db) (hclock : now ≤ now')
    (htime : 0 ≤ now') (hfresh : ∀ entry ∈ (db.sets policy.key).entries, entry.1 ≠ member)
    (hboundary : windowStart now' (windowOf policy.key) ∉ requests policy.key ∨
      policy.limit ≤ ((requests policy.key).countP
        fun timestamp => windowStart now' (windowOf policy.key) < timestamp : Nat)) :
    let inMemory := memorySlidingWindow now' (windowOf policy.key) policy requests
    let inRedis := redisSlidingWindow now' (windowOf policy.key) member policy db
    inMemory.1.allowed = inRedis.1.allowed ∧ inMemory.1.remaining = inRedis.1.remaining ∧
      InStep windowOf now' inMemory.2 inRedis.2 ∧
      ∀ other, policy.key ≠ other → inMemory.2 other = requests other ∧ inRedis.2.sets other = db.sets other := by
  have hpruned := h.prune policy.key hclock
  have hdrop := @dropWhile_lt (windowStart now' (windowOf policy.key)) _ (h.sorted policy.key)
  have hcard : (((db.modify now' policy.key (.removeRange 0 (windowStart now' (windowOf policy.key)))).read
      now' policy.key).card : Int) = ((requests policy.key).countP
        fun timestamp => windowStart now' (windowOf policy.key) < timestamp : Nat) := by
    rw [SortedSets.read_modify, if_pos rfl, card_removeRange_windowStart fun entry hmem =>
      h.nonneg policy.key entry (SortedSets.read_subset _ hmem),
      h.counts policy.key now' _ hclock (le_refl _)]
  have hle : (requests policy.key).countP (fun timestamp => windowStart now' (windowOf policy.key) < timestamp) ≤
      ((requests policy.key).filter fun timestamp =>
        windowStart now' (windowOf policy.key) ≤ timestamp).length := by
    rw [← List.countP_eq_length_filter]
    exact List.countP_mono_left fun timestamp _ hlt => decide_eq_true (of_decide_eq_true hlt).le
  unfold memorySlidingWindow redisSlidingWindow
  simp only [hdrop, hcard]
  by_cases hfull : policy.limit ≤ ((requests policy.key).countP
      fun timestamp => windowStart now' (windowOf policy.key) < timestamp : Nat)
  · rw [if_pos hfull, if_pos (Int.le_trans hfull (Int.ofNat_le.mpr hle))]
    exact ⟨rfl, rfl, hpruned, fun other hne =>
      ⟨Function.update_of_ne (Ne.symm hne) _ _, if_neg hne⟩⟩
  · have hclear := hboundary.resolve_right hfull
    have hsame : ((requests policy.key).filter fun timestamp =>
        windowStart now' (windowOf policy.key) ≤ timestamp).length =
          (requests policy.key).countP fun timestamp => windowStart now' (windowOf policy.key) < timestamp := by
      rw [← List.countP_eq_length_filter]
      refine List.countP_congr fun timestamp hmem => ?_
      rw [decide_eq_true_iff, decide_eq_true_iff]
      refine ⟨fun hge => lt_of_le_of_ne hge ?_, le_of_lt⟩
      rintro rfl
      exact hclear hmem
    rw [if_neg hfull, hsame, if_neg hfull]
    have hrecorded := hpruned.record policy.key htime fun entry hmem => by
      rw [SortedSets.sets_modify] at hmem
      exact hfresh entry (SortedSets.read_subset _ (SortedSet.removeRange_subset _ hmem))
    rw [Function.update_self, Function.update_idem] at hrecorded
    refine ⟨rfl, max_eq_right (by omega), hrecorded, fun other hne =>
      ⟨Function.update_of_ne (Ne.symm hne) _ _, ?_⟩⟩
    exact (if_neg hne).trans (if_neg hne)

theorem InStep.mono {now' : ℚ} (h : InStep windowOf now requests db) (hclock : now ≤ now') :
    InStep windowOf now' requests db where
  sorted := h.sorted
  past key timestamp hmem := le_trans (h.past key timestamp hmem) hclock
  nonneg := h.nonneg
  counts key later start hlater := h.counts key later start (le_trans hclock hlater)

/-- A batch over distinct keys is decided alike. -/
theorem InStep.checkAll {now' : ℚ} {policies : List Policy} (h : InStep windowOf now requests db)
    (hclock : now ≤ now') (htime : 0 ≤ now') (hkeys : (policies.map Policy.key).Nodup)
    (hwindow : ∀ policy ∈ policies, window = windowOf policy.key)
    (hfresh : ∀ policy ∈ policies, ∀ entry ∈ (db.sets policy.key).entries, entry.1 ≠ member)
    (hboundary : ∀ policy ∈ policies, windowStart now' window ∉ requests policy.key ∨
      policy.limit ≤ ((requests policy.key).countP
        fun timestamp => windowStart now' window < timestamp : Nat)) :
    let inMemory := untilDenied (memorySlidingWindow now' window) policies requests
    let inRedis := untilDenied (redisSlidingWindow now' window member) policies db
    decisions inMemory.1 = decisions inRedis.1 ∧ InStep windowOf now' inMemory.2 inRedis.2 := by
  induction policies generalizing now requests db with
  | nil => exact ⟨rfl, h.mono hclock⟩
  | cons policy rest ih =>
    obtain rfl := hwindow policy List.mem_cons_self
    obtain ⟨hallowed, hremaining, hstep, hother⟩ := h.check hclock htime
      (hfresh policy List.mem_cons_self) (hboundary policy List.mem_cons_self)
    rw [List.map_cons, List.nodup_cons] at hkeys
    have hne : ∀ other ∈ rest, policy.key ≠ other.key := fun other hmem heq =>
      hkeys.1 (heq ▸ List.mem_map_of_mem hmem)
    obtain ⟨hdecisions, hrest⟩ := ih hstep (le_refl _) hkeys.2
      (fun other hmem => hwindow other (List.mem_cons_of_mem _ hmem))
      (fun other hmem => by
        rw [(hother _ (hne other hmem)).2]
        exact hfresh other (List.mem_cons_of_mem _ hmem))
      (fun other hmem => by
        rw [(hother _ (hne other hmem)).1]
        exact hboundary other (List.mem_cons_of_mem _ hmem))
    simp only [untilDenied, hallowed]
    split
    · refine ⟨?_, hrest⟩
      rw [decisions, decisions, List.map_cons, List.map_cons, hallowed, hremaining]
      exact congrArg _ hdecisions
    · refine ⟨?_, hstep⟩
      simp only [decisions, List.map_cons, List.map_nil, hallowed, hremaining]

end Agreement

/-! ## Runs -/

section Runs

variable {windowOf : String → Window}
  {x : Move WindowStores WindowCall (List RateLimitResult × List RateLimitResult)}
  {tr : List (Move WindowStores WindowCall (List RateLimitResult × List RateLimitResult))}
  {final : WindowStores}

structure StoresInStep (windowOf : String → Window) (s : WindowStores) : Prop where
  time : 0 ≤ s.now
  members : ∀ key, ∀ entry ∈ (s.db.sets key).entries, entry.1 ∈ s.members
  inStep : InStep windowOf s.now s.requests s.db

theorem storesInStep_step (hx : windowStores.Makes x) (hcomparable : Comparable windowOf x)
    (h : StoresInStep windowOf x.pre) :
    StoresInStep windowOf x.post ∧ decisions x.reply.1 = decisions x.reply.2 := by
  simp only [Machine.Makes, windowStores, Option.ite_none_right_eq_some, Option.some.injEq,
    Prod.mk.injEq, redisSlidingWindowMany_eq] at hx
  obtain ⟨⟨hclock, hnew⟩, hreply, hpost⟩ := hx
  have htime : 0 ≤ x.input.now := le_trans h.time hclock
  have hfresh : ∀ policy ∈ x.input.policies, ∀ entry ∈ (x.pre.db.sets policy.key).entries,
      entry.1 ≠ x.input.member := by
    intro policy _ entry hmem heq
    exact hnew (heq ▸ h.members policy.key entry hmem)
  obtain ⟨hdecisions, hstep⟩ := h.inStep.checkAll hclock htime hcomparable.keys hcomparable.window
    hfresh hcomparable.boundary
  rw [← hreply, ← hpost]
  refine ⟨⟨htime, ?_, hstep⟩, hdecisions⟩
  refine untilDenied_keeps (P := fun db : WindowDb =>
    ∀ key, ∀ entry ∈ (db.sets key).entries, entry.1 ∈ x.input.member :: x.pre.members) ?_ ?_
  · intro policy _ db hdb key entry hmem
    rcases mem_redisSlidingWindow hmem with heq | hold
    · rw [heq]
      exact List.mem_cons_self
    · exact hdb key entry hold
  · exact fun key entry hmem => List.mem_cons_of_mem _ (h.members key entry hmem)

theorem storesInStep_new : StoresInStep windowOf WindowStores.new where
  time := le_refl _
  members _ := nofun
  inStep := inStep_new

/-- In a run whose calls are all comparable, the deques and the script decide the same
    about every policy and leave the same remaining count. -/
theorem limiters_agree (h : Run windowStores .new tr final) (hcomparable : ∀ x ∈ tr, Comparable windowOf x) :
    ∀ x ∈ tr, decisions x.reply.1 = decisions x.reply.2 := by
  have hstores := (h.invariant_when (fun x hx hc hpre => (storesInStep_step hx hc hpre).1) hcomparable
    (@storesInStep_new windowOf)).1
  intro x hx
  obtain ⟨-, -, hmakes⟩ := h.of_mem hx
  exact (storesInStep_step hmakes (hcomparable x hx) (hstores x hx).1).2

/-- A request is made just before the window of the first ends, and one after. -/
theorem limiters_agree_twice :
    let policy : Policy := ⟨"ratelimit:global", 1, "global"⟩
    let window : Window := ⟨60, by decide⟩
    ∃ tr final, Run windowStores .new tr final ∧
      tr.map Move.input = [⟨0, window, "0:1", [policy]⟩, ⟨59, window, "59:2", [policy]⟩,
        ⟨61, window, "61:3", [policy]⟩] ∧
      ∀ x ∈ tr, decisions x.reply.1 = decisions x.reply.2 := by
  intro policy window
  obtain ⟨tr, final, hrun, hinputs, hcheck⟩ := windowStores.exists_run .new
    [⟨0, window, "0:1", [policy]⟩, ⟨59, window, "59:2", [policy]⟩, ⟨61, window, "61:3", [policy]⟩]
    (fun tr _ => tr.all fun x => Comparable (fun _ => window) x) (by decide +kernel)
  exact ⟨tr, final, hrun, hinputs,
    limiters_agree hrun fun x hx => of_decide_eq_true (List.all_eq_true.mp hcheck x hx)⟩

/-- A request made when the window of the one before ends: the deque still counts that
    one and denies, the script has removed it and allows. -/
theorem boundary_disagrees :
    let policy : Policy := ⟨"ratelimit:global", 1, "global"⟩
    let window : Window := ⟨60, by decide⟩
    ∃ tr final, Run windowStores .new tr final ∧
      tr.map Move.input = [⟨0, window, "0:1", [policy]⟩, ⟨60, window, "60:2", [policy]⟩] ∧
      tr.map (fun x => (decisions x.reply.1, decisions x.reply.2)) =
        [([(true, 0)], [(true, 0)]), ([(false, 0)], [(true, 0)])] ∧
      ¬ ∀ x ∈ tr, decisions x.reply.1 = decisions x.reply.2 := by
  intro policy window
  obtain ⟨tr, final, hrun, hinputs, hcheck⟩ := windowStores.exists_run .new
    [⟨0, window, "0:1", [policy]⟩, ⟨60, window, "60:2", [policy]⟩]
    (fun tr _ => tr.map (fun x => (decisions x.reply.1, decisions x.reply.2)) =
        [([(true, 0)], [(true, 0)]), ([(false, 0)], [(true, 0)])] ∧
      ¬ ∀ x ∈ tr, decisions x.reply.1 = decisions x.reply.2) (by decide +kernel)
  exact ⟨tr, final, hrun, hinputs, of_decide_eq_true hcheck⟩

end Runs

end AiPlatform.Dispatch
