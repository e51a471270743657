/-
  AiPlatform.Dispatch.HonestRetry

  The deques in memory over any sequence of requests: how many requests are admitted
  in a window, and what a denied request is told about when to come again.

  A deque holds what was admitted and is not older than the window.  A request is
  denied when the deque is full, and is told to wait until its oldest entry has gone;
  a limit that is not positive admits nothing, and such an entry is not there.
-/

import AiPlatform.Lib.Machine
import AiPlatform.Lib.SlidingLog
import AiPlatform.Dispatch.SlidingWindow
import Mathlib.Tactic.Linarith

namespace AiPlatform.Dispatch

open Transition SlidingLog

/-- `_memory_sliding_window` with all its arguments; a window may have any length. -/
def memorySlidingWindowAt (now windowStart : ℚ) (window : Int) (policy : Policy)
    (requests : Requests) : RateLimitResult × Requests :=
  let timestamps := prune windowStart (requests policy.key)
  let currentCount : Int := timestamps.length
  let remaining := max 0 (policy.limit - currentCount - 1)
  let resetAt := truncate (now + window)
  if policy.limit ≤ currentCount then
    let retryAfter :=
      match timestamps with
      | [] => window
      | earliest :: _ => truncate (earliest - windowStart) + 1
    (⟨false, policy.dimension, policy.limit, 0, resetAt, retryAfter⟩,
      Function.update requests policy.key timestamps)
  else
    (⟨true, policy.dimension, policy.limit, remaining, resetAt, 0⟩,
      Function.update requests policy.key (timestamps ++ [now]))

/-- The check of the limiters is this one at the start of their window. -/
theorem memorySlidingWindow_eq (now : ℚ) (window : Window) :
    memorySlidingWindow now window =
      memorySlidingWindowAt now (windowStart now window) window.val := by
  funext policy requests
  simp only [memorySlidingWindowAt, prune, Int.cast_natCast]
  rfl

/-! ## Requests one after another -/

structure WindowRequest where
  now : ℚ
  window : Int
  policy : Policy

structure MemoryLimiter where
  now : ℚ
  requests : Requests

def MemoryLimiter.new (now : ℚ) : MemoryLimiter := ⟨now, fun _ => []⟩

/-- Requests against any keys, at instants that do not go back. -/
def memoryLimiter : Machine MemoryLimiter WindowRequest RateLimitResult where
  step s request :=
    if s.now ≤ request.now then
      let (result, requests) := memorySlidingWindowAt request.now (request.now - request.window)
        request.window request.policy s.requests
      some (result, ⟨request.now, requests⟩)
    else none

/-- A request and what it was answered. -/
abbrev LimiterMove := Move MemoryLimiter WindowRequest RateLimitResult

/-- The instants at which requests for the key were admitted. -/
def admittedAt (key : String) (tr : List LimiterMove) : List ℚ :=
  (tr.filter fun x => x.input.policy.key == key && x.reply.allowed).map fun x => x.input.now

/-- The requests for the key all have this limit and this window. -/
def FixedFor (key : String) (limit window : Int) (tr : List LimiterMove) : Prop :=
  ∀ x ∈ tr, x.input.policy.key = key → x.input.policy.limit = limit ∧ x.input.window = window

/-- At no instant more than `limit` requests have been admitted in the window that ends there. -/
def WindowSafe (key : String) (limit window : Int) (tr : List LimiterMove) : Prop :=
  ∀ instant : ℚ, ((admittedAt key tr).countP fun admitted =>
    instant - window ≤ admitted ∧ admitted ≤ instant : Nat) ≤ limit

/-- A request that comes when a denied one was told to is admitted, unless one in between was. -/
def RetryHonest (key : String) (tr : List LimiterMove) : Prop :=
  ∀ (before between after : List LimiterMove) (x y : LimiterMove),
    tr = before ++ x :: (between ++ y :: after) →
    x.input.policy.key = key → x.reply.allowed = false →
    (∀ z ∈ between, z.input.policy.key = key → z.reply.allowed = false) →
    y.input.policy.key = key → x.input.now + x.reply.retryAfter ≤ y.input.now →
    y.reply.allowed = true

/-! ## One request -/

section Step

variable {x : LimiterMove} {key : String} {limit window : Int}

theorem makes_limiter (hx : memoryLimiter.Makes x) :
    x.pre.now ≤ x.input.now ∧ x.post.now = x.input.now ∧
      memorySlidingWindowAt x.input.now (x.input.now - x.input.window) x.input.window
        x.input.policy x.pre.requests = (x.reply, x.post.requests) := by
  simp only [Machine.Makes, memoryLimiter, Option.ite_none_right_eq_some, Option.some.injEq,
    Prod.mk.injEq] at hx
  obtain ⟨hclock, hreply, hpost⟩ := hx
  rw [← hpost]
  exact ⟨hclock, rfl, Prod.ext hreply rfl⟩

/-- What a request for the key finds there when the old instants have gone. -/
def LimiterMove.found (x : LimiterMove) : List ℚ :=
  prune (x.input.now - x.input.window) (x.pre.requests x.input.policy.key)

/-- A request for another key does nothing to the key. -/
theorem requests_of_ne (hx : memoryLimiter.Makes x) (hkey : x.input.policy.key ≠ key) :
    x.post.requests key = x.pre.requests key := by
  obtain ⟨-, -, heq⟩ := makes_limiter hx
  unfold memorySlidingWindowAt at heq
  simp only at heq
  split at heq
  · rw [← (Prod.mk.inj heq).2]
    exact Function.update_of_ne (Ne.symm hkey) _ _
  · rw [← (Prod.mk.inj heq).2]
    exact Function.update_of_ne (Ne.symm hkey) _ _

/-- A request is denied when the deque is full, with what is left of its oldest entry's time. -/
theorem denied_iff (hx : memoryLimiter.Makes x) :
    x.reply.allowed = false ↔ x.input.policy.limit ≤ x.found.length := by
  obtain ⟨-, -, heq⟩ := makes_limiter hx
  unfold memorySlidingWindowAt at heq
  simp only at heq
  split at heq
  · rename_i hfull
    rw [← (Prod.mk.inj heq).1]
    exact iff_of_true rfl hfull
  · rename_i hroom
    rw [← (Prod.mk.inj heq).1]
    exact iff_of_false nofun hroom

theorem found_of_denied (hx : memoryLimiter.Makes x) (hdenied : x.reply.allowed = false) :
    x.post.requests x.input.policy.key = x.found ∧
      x.reply.retryAfter = match x.found with
        | [] => x.input.window
        | earliest :: _ => truncate (earliest - (x.input.now - x.input.window)) + 1 := by
  have hfull := (denied_iff hx).mp hdenied
  obtain ⟨-, -, heq⟩ := makes_limiter hx
  unfold memorySlidingWindowAt at heq
  change ite (x.input.policy.limit ≤ (x.found.length : Int)) _ _ = _ at heq
  rw [if_pos hfull] at heq
  obtain ⟨hreply, hpost⟩ := Prod.mk.inj heq
  rw [← hreply, ← hpost]
  exact ⟨Function.update_self .., rfl⟩

theorem found_of_allowed (hx : memoryLimiter.Makes x) (hallowed : x.reply.allowed = true) :
    x.post.requests x.input.policy.key = x.found ++ [x.input.now] := by
  have hroom : ¬ x.input.policy.limit ≤ x.found.length := by
    rw [← denied_iff hx, hallowed]
    exact nofun
  obtain ⟨-, -, heq⟩ := makes_limiter hx
  unfold memorySlidingWindowAt at heq
  change ite (x.input.policy.limit ≤ (x.found.length : Int)) _ _ = _ at heq
  rw [if_neg hroom] at heq
  rw [← (Prod.mk.inj heq).2]
  exact Function.update_self ..

/-- A denied request for a key with a positive limit is told to wait until the oldest entry of
    the deque is too old. -/
theorem retryAfter_spec (hx : memoryLimiter.Makes x) (hdenied : x.reply.allowed = false)
    (hpos : 0 < x.input.policy.limit) :
    ∃ earliest rest, x.post.requests x.input.policy.key = earliest :: rest ∧
      earliest < x.input.now + x.reply.retryAfter - x.input.window := by
  obtain ⟨hpost, hretry⟩ := found_of_denied hx hdenied
  have hfull := (denied_iff hx).mp hdenied
  cases hfound : x.found with
  | nil =>
    rw [hfound, List.length_nil] at hfull
    omega
  | cons earliest rest =>
    rw [hfound] at hpost hretry
    refine ⟨earliest, rest, hpost, ?_⟩
    have hold : x.input.now - x.input.window ≤ earliest := le_of_prune_eq_cons hfound
    have hfloor := Int.lt_floor_add_one (earliest - (x.input.now - x.input.window))
    rw [hretry]
    simp only [truncate, if_pos (sub_nonneg.mpr hold), Int.cast_add, Int.cast_one]
    linarith

end Step

/-! ## All requests -/

section Runs

variable {x : LimiterMove} {key : String} {limit window : Int} {tr : List LimiterMove}
  {start : ℚ} {final s t : MemoryLimiter}

theorem admittedAt_concat (key : String) (tr : List LimiterMove) (x : LimiterMove) :
    admittedAt key (tr ++ [x]) = admittedAt key tr ++
      if x.input.policy.key = key ∧ x.reply.allowed = true then [x.input.now] else [] := by
  rw [admittedAt, List.filter_append, List.map_append]
  congr 1
  by_cases hcounts : x.input.policy.key = key ∧ x.reply.allowed = true
  · rw [if_pos hcounts, List.filter_cons_of_pos (by simp [hcounts]), List.filter_nil]
    rfl
  · rw [if_neg hcounts, List.filter_cons_of_neg (by simpa using hcounts)]
    rfl

/-- The deque of the key after these moves: it has what was admitted in the window, and no more
    than the limit. -/
structure DequeOk (key : String) (limit window : Int) (tr : List LimiterMove)
    (s : MemoryLimiter) : Prop where
  keeps : Keeps (admittedAt key tr) (s.requests key) (s.now - window)
  length : ((s.requests key).length : Int) ≤ max limit 0
  safe : WindowSafe key (max limit 0) window tr

theorem dequeOk_new : DequeOk key limit window [] (.new start) where
  keeps := keeps_nil _
  length := le_max_right limit 0
  safe _ := le_max_right limit 0

/-- A request for another key only lets time pass. -/
theorem DequeOk.other (h : DequeOk key limit window tr x.pre) (hx : memoryLimiter.Makes x)
    (hkey : x.input.policy.key ≠ key) : DequeOk key limit window (tr ++ [x]) x.post := by
  obtain ⟨hclock, hnow, -⟩ := makes_limiter hx
  have hadmitted : admittedAt key (tr ++ [x]) = admittedAt key tr := by
    rw [admittedAt_concat, if_neg (fun hboth => hkey hboth.1), List.append_nil]
  refine ⟨?_, ?_, ?_⟩
  · rw [hadmitted, requests_of_ne hx hkey, hnow]
    obtain ⟨gone, heq, hgone⟩ := h.keeps
    exact ⟨gone, heq, fun instant hmem =>
      lt_of_lt_of_le (hgone instant hmem) (sub_le_sub_right hclock _)⟩
  · rw [requests_of_ne hx hkey]
    exact h.length
  · intro instant
    rw [hadmitted]
    exact h.safe instant

/-- What a request for the key finds holds all that was admitted in its window. -/
theorem DequeOk.found (h : DequeOk key limit window tr x.pre) (hx : memoryLimiter.Makes x)
    (hkey : x.input.policy.key = key) (hwindow : x.input.window = window) :
    Keeps (admittedAt key tr) x.found (x.input.now - window) := by
  obtain ⟨hclock, -, -⟩ := makes_limiter hx
  rw [LimiterMove.found, hkey, hwindow]
  exact h.keeps.prune (sub_le_sub_right hclock _)

theorem DequeOk.denied (h : DequeOk key limit window tr x.pre) (hx : memoryLimiter.Makes x)
    (hkey : x.input.policy.key = key) (hwindow : x.input.window = window)
    (hdenied : x.reply.allowed = false) : DequeOk key limit window (tr ++ [x]) x.post := by
  have hpost := (found_of_denied hx hdenied).1
  rw [hkey] at hpost
  have hadmitted : admittedAt key (tr ++ [x]) = admittedAt key tr := by
    rw [admittedAt_concat, if_neg (by simp [hdenied]), List.append_nil]
  refine ⟨?_, ?_, ?_⟩
  · rw [hadmitted, hpost, (makes_limiter hx).2.1]
    exact h.found hx hkey hwindow
  · have hle := length_prune_le (x.input.now - x.input.window) (x.pre.requests key)
    have hlength := h.length
    rw [hpost, LimiterMove.found, hkey]
    omega
  · intro instant
    rw [hadmitted]
    exact h.safe instant

theorem DequeOk.allowed (h : DequeOk key limit window tr x.pre) (hx : memoryLimiter.Makes x)
    (hkey : x.input.policy.key = key) (hlimit : x.input.policy.limit = limit)
    (hwindow : x.input.window = window) (hallowed : x.reply.allowed = true) :
    DequeOk key limit window (tr ++ [x]) x.post := by
  have hpost := found_of_allowed hx hallowed
  rw [hkey] at hpost
  have hroom : (x.found.length : Int) < limit := by
    rw [← hlimit, ← not_le, ← denied_iff hx, hallowed]
    exact nofun
  have hkeeps := h.found hx hkey hwindow
  have hadmitted : admittedAt key (tr ++ [x]) = admittedAt key tr ++ [x.input.now] := by
    rw [admittedAt_concat, if_pos ⟨hkey, hallowed⟩]
  refine ⟨?_, ?_, ?_⟩
  · rw [hadmitted, hpost, (makes_limiter hx).2.1]
    exact hkeeps.record x.input.now
  · rw [hpost, List.length_append, List.length_singleton]
    omega
  · intro instant
    rw [hadmitted, List.countP_append, List.countP_singleton]
    by_cases hin : instant - window ≤ x.input.now ∧ x.input.now ≤ instant
    · -- What else the window holds is still in the deque, which had room.
      have hle : (admittedAt key tr).countP (fun admitted =>
          instant - window ≤ admitted ∧ admitted ≤ instant) ≤ x.found.length :=
        hkeeps.countP_le (sub_le_sub_right hin.2 (window : ℚ))
      rw [if_pos (decide_eq_true hin)]
      omega
    · rw [if_neg (by simpa using hin), Nat.add_zero]
      exact h.safe instant

theorem dequeOk_run (h : Run memoryLimiter (.new start) tr final)
    (hfixed : FixedFor key limit window tr) : DequeOk key limit window tr final := by
  refine h.history ?_ hfixed dequeOk_new
  intro past x hx hfixed hpre
  by_cases hkey : x.input.policy.key = key
  · obtain ⟨hlimit, hwindow⟩ := hfixed hkey
    cases hreply : x.reply.allowed with
    | false => exact hpre.denied hx hkey hwindow hreply
    | true => exact hpre.allowed hx hkey hlimit hwindow hreply
  · exact hpre.other hx hkey

/-- While requests for the key are only denied, its deque only loses old entries. -/
theorem requests_suffix (h : Run memoryLimiter s tr t)
    (hdenied : ∀ x ∈ tr, x.input.policy.key = key → x.reply.allowed = false) :
    t.requests key <:+ s.requests key := by
  induction h with
  | nil s => exact List.suffix_rfl
  | @cons x rest t hx _ ih =>
    refine (ih fun y hy => hdenied y (List.mem_cons_of_mem _ hy)).trans ?_
    by_cases hkey : x.input.policy.key = key
    · rw [← hkey, (found_of_denied hx (hdenied x List.mem_cons_self hkey)).1]
      exact prune_suffix _ _
    · exact requests_of_ne hx hkey ▸ List.suffix_rfl

/-- Without its old first entry there is room in a deque that was full. -/
theorem length_prune_lt_of_suffix {earliest start : ℚ} {rest log : List ℚ}
    (hsuffix : log <:+ earliest :: rest) (hold : earliest < start) :
    (prune start log).length < (earliest :: rest).length := by
  rcases List.suffix_cons_iff.mp hsuffix with rfl | hrest
  · exact length_prune_lt hold
  · exact Nat.lt_succ_of_le ((length_prune_le start log).trans hrest.length_le)

theorem retryHonest_run (h : Run memoryLimiter (.new start) tr final)
    (hfixed : FixedFor key limit window tr) (hpos : 0 < limit) : RetryHonest key tr := by
  rintro before between after x y rfl hkey hdenied hquiet hkey' hcomes
  obtain ⟨hbefore, hx, hrest⟩ := h.of_split
  obtain ⟨hbetween, hy, -⟩ := hrest.of_split
  obtain ⟨hlimit, hwindow⟩ := hfixed x (by simp) hkey
  obtain ⟨hlimit', hwindow'⟩ := hfixed y (by simp) hkey'
  obtain ⟨earliest, rest, hpost, hold⟩ := retryAfter_spec hx hdenied (hlimit ▸ hpos)
  rw [hkey] at hpost
  have hlength : ((x.post.requests key).length : Int) ≤ max limit 0 :=
    ((dequeOk_run hbefore fun z hz => hfixed z (List.mem_append_left _ hz)).denied hx hkey
      hwindow hdenied).length
  have hsuffix := requests_suffix hbetween hquiet
  rw [hpost] at hlength hsuffix
  have hroom : y.found.length < (earliest :: rest).length := by
    refine length_prune_lt_of_suffix (hkey' ▸ hsuffix) ?_
    rw [hwindow'] at *
    rw [hwindow] at hold
    linarith
  rw [← Bool.not_eq_false, denied_iff hy, hlimit']
  omega

/-- For a fixed limit and window, at most the limit of requests is admitted in any window, and
    what a denied request is told is true.  Under a limit that is not positive every request is
    denied and told to wait for the length of the window. -/
theorem window_and_retry (h : Run memoryLimiter (.new start) tr final)
    (hfixed : FixedFor key limit window tr) :
    (0 < limit → WindowSafe key limit window tr ∧ RetryHonest key tr) ∧
      (limit ≤ 0 → ∀ x ∈ tr, x.input.policy.key = key →
        x.reply.allowed = false ∧ x.reply.retryAfter = window) := by
  constructor
  · intro hpos
    have hsafe := (dequeOk_run h hfixed).safe
    rw [max_eq_left hpos.le] at hsafe
    exact ⟨hsafe, retryHonest_run h hfixed hpos⟩
  · intro hle x hmem hkey
    obtain ⟨before, after, rfl⟩ := List.append_of_mem hmem
    obtain ⟨hbefore, hx, -⟩ := h.of_split
    obtain ⟨hlimit, hwindow⟩ := hfixed x hmem hkey
    have hdenied : x.reply.allowed = false := by
      rw [denied_iff hx, hlimit]
      omega
    have hlength := ((dequeOk_run hbefore fun z hz =>
      hfixed z (List.mem_append_left _ hz)).denied hx hkey hwindow hdenied).length
    obtain ⟨hpost, hretry⟩ := found_of_denied hx hdenied
    rw [← hkey, hpost] at hlength
    have hempty : x.found = [] := List.length_eq_zero_iff.mp (by omega)
    rw [hempty] at hretry
    exact ⟨hdenied, hretry.trans hwindow⟩

/-- A second request in the minute is denied, and admitted when it comes again. -/
theorem window_and_retry_once :
    let policy : Policy := ⟨"ratelimit:global", 1, "global"⟩
    ∃ tr final, Run memoryLimiter (.new 0) tr final ∧
      tr.map Move.input = [⟨1 / 2, 60, policy⟩, ⟨20, 60, policy⟩, ⟨61, 60, policy⟩] ∧
      tr.map (fun x => (x.reply.allowed, x.reply.retryAfter)) =
        [(true, 0), (false, 41), (true, 0)] ∧
      WindowSafe policy.key 1 60 tr ∧ RetryHonest policy.key tr := by
  intro policy
  obtain ⟨tr, final, hrun, hinputs, hcheck⟩ := memoryLimiter.exists_run (.new 0)
    [⟨1 / 2, 60, policy⟩, ⟨20, 60, policy⟩, ⟨61, 60, policy⟩]
    (fun tr _ => tr.map (fun x => (x.reply.allowed, x.reply.retryAfter)) =
      [(true, 0), (false, 41), (true, 0)] ∧
        ∀ x ∈ tr, x.input.policy.limit = 1 ∧ x.input.window = 60) (by decide +kernel)
  obtain ⟨hreplies, hfixed⟩ := of_decide_eq_true hcheck
  exact ⟨tr, final, hrun, hinputs, hreplies,
    (window_and_retry hrun fun x hx _ => hfixed x hx).1 Int.one_pos⟩

/-- Under a limit of zero the request that comes again when it was told to is denied. -/
theorem zero_limit_never_admits :
    ¬ ∀ (key : String) (limit window : Int) (start : ℚ) (tr : List LimiterMove)
      (final : MemoryLimiter), Run memoryLimiter (.new start) tr final →
        FixedFor key limit window tr → WindowSafe key limit window tr ∧ RetryHonest key tr := by
  intro hall
  let policy : Policy := ⟨"ratelimit:global", 0, "global"⟩
  obtain ⟨tr, final, hrun, hinputs, hcheck⟩ := memoryLimiter.exists_run (.new 0)
    [⟨0, 60, policy⟩, ⟨60, 60, policy⟩]
    (fun tr _ => tr.map (fun x => (x.reply.allowed, x.reply.retryAfter)) =
      [(false, 60), (false, 60)]) (by decide +kernel)
  have hreplies := of_decide_eq_true hcheck
  obtain ⟨x, rest, rfl, hx, hrest⟩ := List.map_eq_cons_iff.mp hinputs
  obtain ⟨y, rest, rfl, hy, hnil⟩ := List.map_eq_cons_iff.mp hrest
  obtain rfl := List.map_eq_nil_iff.mp hnil
  simp only [List.map_cons, List.map_nil, List.cons.injEq, Prod.mk.injEq, and_true] at hreplies
  obtain ⟨⟨hxdenied, hretry⟩, hydenied, -⟩ := hreplies
  have hfixed : FixedFor policy.key 0 60 [x, y] := by
    intro z hz _
    rcases List.mem_pair.mp hz with rfl | rfl
    · rw [hx]
      exact ⟨rfl, rfl⟩
    · rw [hy]
      exact ⟨rfl, rfl⟩
  have hcomes : x.input.now + x.reply.retryAfter ≤ y.input.now := by
    rw [hx, hy, hretry]
    norm_num
  have hadmitted := (hall policy.key 0 60 0 [x, y] final hrun hfixed).2 [] [] [] x y rfl
    (by rw [hx]) hxdenied (fun z hz => absurd hz List.not_mem_nil) (by rw [hy]) hcomes
  rw [hydenied] at hadmitted
  cases hadmitted

end Runs

end AiPlatform.Dispatch
