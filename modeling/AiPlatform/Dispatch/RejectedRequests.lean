/-
  AiPlatform.Dispatch.RejectedRequests

  What a rejected request leaves in the sliding windows.

  A limiter checks and records dimension by dimension.  When the first dimension
  denies, the request is recorded nowhere and later requests are decided as if it
  had not been made; when a later one denies, the dimensions before it have been
  charged.
-/

import AiPlatform.Lib.Fields
import AiPlatform.Dispatch.RateLimiters

namespace AiPlatform.Dispatch

open Redis

/-! ## What it means to leave no trace -/

/-- Nothing is in the stores after that was not there before. -/
structure NothingRecorded (before after : LimiterStores) : Prop where
  requests : ∀ key, after.requests key <:+ before.requests key
  db : ∀ key, after.db.sets key ⊆ before.db.sets key

/-- What the requests are answered, one after another. -/
def outcomes : List RateLimitRequest → LimiterStores → List (Option Bool)
  | [], _ => []
  | request :: rest, s =>
      match request.handle s with
      | none => none :: outcomes rest s
      | some (allowed, s) => some allowed :: outcomes rest s

/-- The check comes after another one, and does not look back further for the same key. -/
def Attempt.Follows (earlier attempt : Attempt) : Prop :=
  earlier.reading.now ≤ attempt.reading.now ∧
    (attempt.policy.key = earlier.policy.key →
      windowStart earlier.reading.now earlier.window ≤ windowStart attempt.reading.now attempt.window)

/-- Later requests, on a clock that does not go back, are decided from the one stores as
    from the other. -/
def DecidedAlike (request : RateLimitRequest) (before after : LimiterStores) : Prop :=
  ∀ later : List RateLimitRequest,
    (∀ earlier ∈ request.attempts, ∀ attempt ∈ later.flatMap RateLimitRequest.attempts,
      earlier.Follows attempt) →
    (later.flatMap RateLimitRequest.attempts).Pairwise (fun a b => a.reading.now ≤ b.reading.now) →
    outcomes later after = outcomes later before

namespace Attempt

variable (attempt : Attempt) (s : LimiterStores)

/-- As many requests as the limit are in the window of the policy. -/
def AtLimit : Prop :=
  if attempt.reading.answers then
    attempt.policy.limit ≤ ((s.db.read attempt.reading.now attempt.policy.key).removeRange 0
      (windowStart attempt.reading.now attempt.window)).card
  else
    attempt.policy.limit ≤ ((s.requests attempt.policy.key).dropWhile fun timestamp =>
      timestamp < windowStart attempt.reading.now attempt.window).length

instance : Decidable (attempt.AtLimit s) := inferInstanceAs (Decidable (ite _ _ _))

/-- The stores once the requests below the window are gone. -/
def pruned : LimiterStores :=
  if attempt.reading.answers then
    { s with
      db := s.db.modify attempt.reading.now attempt.policy.key
        (.removeRange 0 (windowStart attempt.reading.now attempt.window)) }
  else
    { s with
      requests := Function.update s.requests attempt.policy.key
        ((s.requests attempt.policy.key).dropWhile fun timestamp =>
          timestamp < windowStart attempt.reading.now attempt.window) }

end Attempt

/-- The first dimension of the request is at its limit. -/
def FirstAtLimit (request : RateLimitRequest) (s : LimiterStores) : Prop :=
  ∃ attempt ∈ request.attempts.head?, attempt.AtLimit s

/-! ## A check at the limit -/

section AtLimit

variable {attempt other : Attempt} {s s' : LimiterStores} {now start start' : ℚ} {timestamps : List ℚ}
  {set : SortedSet String ℚ}

/-- At its limit a policy denies, and only what is below its window goes. -/
theorem check_of_atLimit (h : attempt.AtLimit s) :
    (attempt.check s).1.allowed = false ∧ (attempt.check s).2 = attempt.pruned s := by
  unfold Attempt.AtLimit at h
  unfold Attempt.check Attempt.pruned
  split at h
  · rename_i hanswers
    simp only [if_pos hanswers, redisSlidingWindow, SortedSets.read_modify, if_true, if_pos h, denied,
      and_self]
  · rename_i hanswers
    simp only [if_neg hanswers, memorySlidingWindow, if_pos h, and_self]

theorem dropWhile_dropWhile (h : start ≤ start') :
    (timestamps.dropWhile fun timestamp => timestamp < start).dropWhile
        (fun timestamp => timestamp < start') =
      timestamps.dropWhile fun timestamp => timestamp < start' := by
  induction timestamps with
  | nil => rfl
  | cons earliest rest ih =>
    by_cases hlt : earliest < start
    · rw [List.dropWhile_cons_of_pos (by simpa using hlt),
        List.dropWhile_cons_of_pos (by simpa using lt_of_lt_of_le hlt h), ih]
    · rw [List.dropWhile_cons_of_neg (by simpa using hlt)]

theorem removeRange_removeRange (h : start ≤ start') :
    (set.removeRange 0 start).removeRange 0 start' = set.removeRange 0 start' := by
  ext1
  simp only [SortedSet.removeRange, SortedSet.filter, List.filter_filter]
  refine List.filter_congr fun entry _ => ?_
  by_cases hlow : 0 ≤ entry.2
  · by_cases hhigh : entry.2 ≤ start
    · simp [hlow, hhigh, le_trans hhigh h]
    · simp [hlow, hhigh]
  · simp [hlow]

theorem nothingRecorded_pruned : NothingRecorded s (attempt.pruned s) := by
  unfold Attempt.pruned
  split
  · refine ⟨fun key => List.suffix_rfl, fun key => ?_⟩
    by_cases hkey : attempt.policy.key = key
    · subst hkey
      rw [SortedSets.sets_modify]
      exact fun entry hmem => SortedSets.read_subset _ (SortedSet.removeRange_subset _ hmem)
    · simp only [SortedSets.modify, if_neg hkey]
      exact SortedSet.subset_refl
  · refine ⟨fun key => ?_, fun key => SortedSet.subset_refl⟩
    dsimp only
    by_cases hkey : attempt.policy.key = key
    · subst hkey
      rw [Function.update_self]
      exact List.dropWhile_suffix _
    · exact ⟨[], (Function.update_of_ne (Ne.symm hkey) _ s.requests)⟩

/-- From `now` on the stores differ at most in what the check has found too old. -/
structure Alike (attempt : Attempt) (now : ℚ) (s s' : LimiterStores) : Prop where
  requests : ∀ key start,
    (key = attempt.policy.key → windowStart attempt.reading.now attempt.window ≤ start) →
    ((s'.requests key).dropWhile fun timestamp => timestamp < start) =
      (s.requests key).dropWhile fun timestamp => timestamp < start
  db : ∀ key later start, now ≤ later →
    (key = attempt.policy.key → windowStart attempt.reading.now attempt.window ≤ start) →
    (s'.db.read later key).removeRange 0 start = (s.db.read later key).removeRange 0 start

theorem alike_pruned : Alike attempt attempt.reading.now s (attempt.pruned s) := by
  unfold Attempt.pruned
  split
  · refine ⟨fun _ _ _ => rfl, fun key later start hlater hstart => ?_⟩
    by_cases hkey : attempt.policy.key = key
    · subst hkey
      rw [SortedSets.read_modify_of_empty rfl hlater, removeRange_removeRange (hstart rfl)]
    · rw [SortedSets.read_modify_of_ne hkey]
  · refine ⟨fun key start hstart => ?_, fun _ _ _ _ _ => rfl⟩
    dsimp only
    by_cases hkey : attempt.policy.key = key
    · subst hkey
      rw [Function.update_self, dropWhile_dropWhile (hstart rfl)]
    · rw [Function.update_of_ne (Ne.symm hkey)]

/-- A check that looks back no further decides alike and leaves the stores alike. -/
theorem Alike.check (h : Alike attempt now s s') (hclock : now ≤ other.reading.now)
    (hfollows : attempt.Follows other) :
    (other.check s').1 = (other.check s).1 ∧
      Alike attempt other.reading.now (other.check s).2 (other.check s').2 := by
  have hrequests := h.requests other.policy.key _ hfollows.2
  have hdb := h.db other.policy.key _ _ hclock hfollows.2
  unfold Attempt.check
  split
  · simp only [redisSlidingWindow, SortedSets.read_modify, if_true, hdb]
    split
    · refine ⟨rfl, h.requests, fun key later start hlater hstart => ?_⟩
      by_cases hkey : other.policy.key = key
      · subst hkey
        rw [SortedSets.read_modify_of_empty rfl hlater, SortedSets.read_modify_of_empty rfl hlater,
          h.db other.policy.key later _ (le_trans hclock hlater) hfollows.2]
      · rw [SortedSets.read_modify_of_ne hkey, SortedSets.read_modify_of_ne hkey]
        exact h.db key later start (le_trans hclock hlater) hstart
    · refine ⟨rfl, h.requests, fun key later start hlater hstart => ?_⟩
      by_cases hkey : other.policy.key = key
      · subst hkey
        rw [SortedSets.read_expire_self, SortedSets.read_expire_self, SortedSets.sets_modify,
          SortedSets.sets_modify, SortedSets.read_modify, SortedSets.read_modify, if_pos rfl, if_pos rfl,
          hdb]
      · rw [SortedSets.read_expire_of_ne hkey, SortedSets.read_expire_of_ne hkey,
          SortedSets.read_modify_of_ne hkey, SortedSets.read_modify_of_ne hkey,
          SortedSets.read_modify_of_ne hkey, SortedSets.read_modify_of_ne hkey]
        exact h.db key later start (le_trans hclock hlater) hstart
  · simp only [memorySlidingWindow, hrequests]
    have hother : ∀ timestamps : List ℚ, Alike attempt other.reading.now
        { s with requests := Function.update s.requests other.policy.key timestamps }
        { s' with requests := Function.update s'.requests other.policy.key timestamps } := by
      intro timestamps
      refine ⟨fun key start hstart => ?_, fun key later start hlater =>
        h.db key later start (le_trans hclock hlater)⟩
      by_cases hkey : other.policy.key = key
      · subst hkey
        simp only [Function.update_self]
      · simp only [Function.update_of_ne (Ne.symm hkey)]
        exact h.requests key start hstart
    split
    · exact ⟨rfl, hother _⟩
    · exact ⟨rfl, hother _⟩

/-- The checks of a request, and what comes after them. -/
theorem Alike.attempts {attempts rest : List Attempt} (h : Alike attempt now s s')
    (hfollows : ∀ other ∈ attempts ++ rest, attempt.Follows other)
    (hclock : ∀ other ∈ attempts ++ rest, now ≤ other.reading.now)
    (hsorted : (attempts ++ rest).Pairwise fun a b => a.reading.now ≤ b.reading.now) :
    Attempt.allAllowed attempts s' = Attempt.allAllowed attempts s ∧
      ∃ now', (∀ other ∈ rest, now' ≤ other.reading.now) ∧
        Alike attempt now' (Attempt.after attempts s) (Attempt.after attempts s') := by
  induction attempts generalizing now s s' with
  | nil => exact ⟨rfl, now, hclock, h⟩
  | cons other attempts ih =>
    obtain ⟨hresult, halike⟩ := h.check (hclock other List.mem_cons_self)
      (hfollows other List.mem_cons_self)
    obtain ⟨hfirst, hrest⟩ := List.pairwise_cons.mp hsorted
    rw [Attempt.allAllowed_cons, Attempt.allAllowed_cons, Attempt.after_cons, Attempt.after_cons, hresult]
    cases (other.check s).1.allowed with
    | false =>
      exact ⟨rfl, other.reading.now, fun later hmem => hfirst later (List.mem_append_right _ hmem), halike⟩
    | true =>
      simp only [Bool.true_and, if_true]
      exact ih halike (fun later hmem => hfollows later (List.mem_cons_of_mem _ hmem)) hfirst hrest

theorem outcomes_alike {later : List RateLimitRequest} (h : Alike attempt now s s')
    (hfollows : ∀ other ∈ later.flatMap RateLimitRequest.attempts, attempt.Follows other)
    (hclock : ∀ other ∈ later.flatMap RateLimitRequest.attempts, now ≤ other.reading.now)
    (hsorted : (later.flatMap RateLimitRequest.attempts).Pairwise fun a b => a.reading.now ≤ b.reading.now) :
    outcomes later s' = outcomes later s := by
  induction later generalizing now s s' with
  | nil => rfl
  | cons request later ih =>
    rw [List.flatMap_cons] at hfollows hclock hsorted
    obtain ⟨hallowed, now', hclock', halike⟩ := h.attempts hfollows hclock hsorted
    have hsorted' := (List.pairwise_append.mp hsorted).2.1
    have hfollows' := fun other hmem => hfollows other (List.mem_append_right _ hmem)
    unfold outcomes
    cases hhandle : request.handle s with
    | none =>
      rw [RateLimitRequest.handle_eq_none hhandle]
      exact congrArg _ (ih h hfollows' (fun other hmem => hclock other (List.mem_append_right _ hmem)) hsorted')
    | some out =>
      cases hhandle' : request.handle s' with
      | none =>
        rw [RateLimitRequest.handle_eq_none hhandle'] at hhandle
        cases hhandle
      | some out' =>
        obtain rfl := RateLimitRequest.handle_eq hhandle
        obtain rfl := RateLimitRequest.handle_eq hhandle'
        simp only [hallowed]
        exact congrArg _ (ih halike hfollows' hclock' hsorted')

end AtLimit

/-! ## A check below the limit -/

section Recorded

variable {attempt other : Attempt} {s before after : LimiterStores} {now start : ℚ}
  {timestamps : List ℚ}

/-- The request is under the key of the check. -/
def Attempt.Recorded (attempt : Attempt) (before after : LimiterStores) : Prop :=
  if attempt.reading.answers then
    (attempt.reading.member, attempt.reading.now) ∈ (after.db.sets attempt.policy.key).entries ∧
      ∀ deadline ∈ after.db.deadline attempt.policy.key, attempt.reading.now < deadline
  else
    (before.requests attempt.policy.key).count attempt.reading.now <
      (after.requests attempt.policy.key).count attempt.reading.now

theorem count_dropWhile (h : start ≤ now) :
    (timestamps.dropWhile fun timestamp => timestamp < start).count now = timestamps.count now := by
  induction timestamps with
  | nil => rfl
  | cons earliest rest ih =>
    by_cases hlt : earliest < start
    · rw [List.dropWhile_cons_of_pos (by simpa using hlt), ih, List.count_cons_of_ne]
      exact ne_of_lt (lt_of_lt_of_le hlt h)
    · rw [List.dropWhile_cons_of_neg (by simpa using hlt)]

theorem windowStart_le {window : Window} : windowStart now window ≤ now :=
  sub_le_self now (Nat.cast_nonneg _)

/-- Below its limit a policy allows, and the request is recorded under its key. -/
theorem check_of_not_atLimit (h : ¬ attempt.AtLimit s) :
    (attempt.check s).1.allowed = true ∧ attempt.Recorded s (attempt.check s).2 := by
  unfold Attempt.AtLimit at h
  unfold Attempt.check Attempt.Recorded
  split at h
  · rename_i hanswers
    simp only [if_pos hanswers, redisSlidingWindow, SortedSets.read_modify, if_true, if_neg h, true_and]
    refine ⟨?_, ?_⟩
    · simp only [SortedSets.expire, SortedSets.sets_modify]
      exact SortedSet.mem_add.mpr (.inl rfl)
    · simp only [SortedSets.expire, if_true, Option.mem_some_iff, forall_eq']
      exact lt_add_of_pos_right _ (by positivity)
  · rename_i hanswers
    simp only [if_neg hanswers, memorySlidingWindow, if_neg h, Function.update_self, List.count_append,
      count_dropWhile windowStart_le, List.count_singleton_self, Nat.lt_succ_self, and_self]

/-- The check is made at the same instant, or under another key. -/
def Attempt.Spares (earlier attempt : Attempt) : Prop :=
  attempt.reading.now = earlier.reading.now ∨ attempt.policy.key ≠ earlier.policy.key

/-- A member stays under its key at the instant of its score. -/
theorem redisSlidingWindow_keeps {db : WindowDb} {key member member' : String} {window : Window}
    {policy : Policy}
    (h : (member, now) ∈ (db.sets key).entries ∧ ∀ deadline ∈ db.deadline key, now < deadline) :
    let out := (redisSlidingWindow now window member' policy db).2
    (member, now) ∈ (out.sets key).entries ∧ ∀ deadline ∈ out.deadline key, now < deadline := by
  obtain ⟨hentry, hdeadline⟩ := h
  have hread : db.read now key = db.sets key := by
    unfold SortedSets.read
    refine if_pos ?_
    cases hkey : db.deadline key with
    | none => rfl
    | some deadline => exact decide_eq_true (hdeadline deadline hkey)
  have hpruned : (member, now) ∈
      ((db.read now key).removeRange 0 (windowStart now window)).entries := by
    rw [hread, SortedSet.mem_removeRange]
    refine ⟨hentry, fun hbelow => ?_⟩
    exact absurd hbelow.2 (not_le.mpr (sub_lt_self now (Nat.cast_pos.mpr window.2)))
  unfold redisSlidingWindow
  by_cases hkey : policy.key = key
  · subst hkey
    have hold : ∀ deadline ∈ (db.modify now policy.key
        (.removeRange 0 (windowStart now window))).deadline policy.key, now < deadline := by
      intro deadline hmem
      simp only [SortedSets.modify] at hmem
      split at hmem
      · cases hmem
      · exact hdeadline deadline hmem
    dsimp only
    split
    · rw [SortedSets.sets_modify]
      exact ⟨hpruned, hold⟩
    · simp only [SortedSets.expire, SortedSets.sets_modify, SortedSets.read_modify, if_true,
        Option.mem_some_iff, forall_eq', SortedSet.mem_add]
      refine ⟨?_, lt_add_of_pos_right _ (by positivity)⟩
      by_cases hmember : member = member'
      · exact .inl (by rw [hmember])
      · exact .inr ⟨hpruned, hmember⟩
  · dsimp only
    split
    · simp only [SortedSets.modify, hkey, if_false, false_and]
      exact ⟨hentry, hdeadline⟩
    · simp only [SortedSets.expire, SortedSets.modify, hkey, if_false, false_and]
      exact ⟨hentry, hdeadline⟩

/-- The instant at hand is counted no less. -/
theorem memorySlidingWindow_keeps {requests : Requests} {key : String} {window : Window} {policy : Policy} :
    (requests key).count now ≤ ((memorySlidingWindow now window policy requests).2 key).count now := by
  unfold memorySlidingWindow
  by_cases hkey : policy.key = key
  · subst hkey
    dsimp only
    split <;> dsimp only
    · rw [Function.update_self, count_dropWhile windowStart_le]
    · rw [Function.update_self, List.count_append, count_dropWhile windowStart_le]
      exact Nat.le_add_right _ _
  · dsimp only
    split <;> dsimp only
    · rw [Function.update_of_ne (Ne.symm hkey)]
    · rw [Function.update_of_ne (Ne.symm hkey)]

/-- A check under another key touches nothing here. -/
theorem check_other {key : String} (h : other.policy.key ≠ key) :
    ((other.check s).2.requests key) = s.requests key ∧
      ((other.check s).2.db.sets key) = s.db.sets key ∧
      ((other.check s).2.db.deadline key) = s.db.deadline key := by
  unfold Attempt.check redisSlidingWindow memorySlidingWindow
  split
  · dsimp only
    split
    · simp [SortedSets.modify, h]
    · simp [SortedSets.expire, SortedSets.modify, h]
  · dsimp only
    split
    · exact ⟨Function.update_of_ne (Ne.symm h) _ _, rfl, rfl⟩
    · exact ⟨Function.update_of_ne (Ne.symm h) _ _, rfl, rfl⟩

/-- A request stays recorded through its other checks. -/
theorem recorded_check (hspares : attempt.Spares other) (h : attempt.Recorded before s) :
    attempt.Recorded before (other.check s).2 := by
  rcases hspares with hnow | hkey
  · unfold Attempt.Recorded at h ⊢
    unfold Attempt.check
    rw [hnow]
    split at h
    · rename_i hanswers
      rw [if_pos hanswers]
      split
      · exact redisSlidingWindow_keeps h
      · exact h
    · rename_i hanswers
      rw [if_neg hanswers]
      split
      · exact h
      · exact Nat.lt_of_lt_of_le h memorySlidingWindow_keeps
  · obtain ⟨hrequests, hsets, hdeadline⟩ := @check_other other s _ hkey
    unfold Attempt.Recorded at h ⊢
    rw [hrequests, hsets, hdeadline]
    exact h

theorem recorded_after {attempts : List Attempt} (hspares : ∀ other ∈ attempts, attempt.Spares other)
    (h : attempt.Recorded before s) : attempt.Recorded before (Attempt.after attempts s) :=
  untilDenied_keeps (fun other hmem _ hrecorded => recorded_check (hspares other hmem) hrecorded) h

theorem not_nothingRecorded (h : attempt.Recorded before after)
    (hfresh : ∀ entry ∈ (before.db.sets attempt.policy.key).entries, entry.1 ≠ attempt.reading.member) :
    ¬ NothingRecorded before after := by
  intro hnothing
  unfold Attempt.Recorded at h
  split at h
  · exact hfresh _ (hnothing.db _ _ h.1) rfl
  · exact absurd h (Nat.not_lt.mpr ((hnothing.requests attempt.policy.key).sublist.count_le _))

end Recorded

/-! ## The checks of one request -/

section Keys

variable {config : MultiDimensionRateLimitConfig} {context : RateLimitContext} {skip : String → Bool}
  {readings : Nat → Reading} {i : Nat} {dimensions : List Dimension}

theorem keys_checkAttempts : (checkAttempts readings i dimensions).map (·.policy.key) =
    dimensions.map (·.policy.key) := by
  induction dimensions generalizing i with
  | nil => rfl
  | cons dimension rest ih => rw [checkAttempts, List.map_cons, List.map_cons, ih]

theorem global_getElem? : "ratelimit:global".toList[10]? = some 'g' := by decide
theorem ip_getElem? : "ratelimit:ip:".toList[10]? = some 'i' := by decide
theorem user_getElem? : "ratelimit:user:".toList[10]? = some 'u' := by decide
theorem tenant_getElem? : "ratelimit:tenant:".toList[10]? = some 't' := by decide
theorem assistant_getElem? : "ratelimit:assistant:".toList[10]? = some 'a' := by decide
theorem op_getElem? : "ratelimit:op:".toList[10]? = some 'o' := by decide

theorem map_ite_sublist {α β : Type} {f : α → β} {p : Prop} [Decidable p] {x : α} {y : β} (h : f x = y) :
    List.Sublist ((if p then [x] else []).map f) [y] := by
  split
  · rw [List.map_singleton, h]
  · exact List.nil_sublist _

/-- The dimensions of `check` are told apart by the eleventh character of their keys. -/
theorem checks_sublist : List.Sublist
    ((checks config context skip).map fun dimension => dimension.policy.key.toList[10]?)
    ([some 'g'] ++ [some 'i'] ++ [some 'u'] ++ [some 't'] ++ [some 'a'] ++ [some 'o']) := by
  unfold checks
  simp only [List.map_append]
  refine List.Sublist.append (List.Sublist.append (List.Sublist.append (List.Sublist.append
    (List.Sublist.append ?_ ?_) ?_) ?_) ?_) ?_
  · exact map_ite_sublist global_getElem?
  · exact map_ite_sublist (Fields.getElem?_append_of_eq_some _ ip_getElem?)
  · exact map_ite_sublist (Fields.getElem?_append_of_eq_some _ user_getElem?)
  · exact map_ite_sublist (Fields.getElem?_append_of_eq_some _ tenant_getElem?)
  · exact map_ite_sublist (Fields.getElem?_append_of_eq_some _ assistant_getElem?)
  · split
    · exact map_ite_sublist (Fields.getElem?_append_of_eq_some _ op_getElem?)
    · exact List.nil_sublist _

theorem keys_checks_nodup : ((checks config context skip).map (·.policy.key)).Nodup := by
  have hletters : (((checks config context skip).map (·.policy.key)).map
      fun key => key.toList[10]?).Nodup := by
    rw [List.map_map]
    exact checks_sublist.nodup (by decide)
  exact hletters.of_map

theorem now_redisAttempts {now : ℚ} {member : String} {all : List Check} {answers : Nat → Bool}
    {windows : List Window} {attempt : Attempt} (h : attempt ∈ redisAttempts now member all answers i windows) :
    attempt.reading.now = now := by
  induction windows generalizing i with
  | nil => cases h
  | cons window rest ih =>
    unfold redisAttempts at h
    split at h
    · rcases List.mem_append.mp h with h | h
      · obtain ⟨entry, -, rfl⟩ := List.mem_map.mp h
        rfl
      · exact ih h
    · obtain ⟨check, -, rfl⟩ := List.mem_map.mp h
      rfl

/-- No check of a request makes the limiter forget the first one. -/
theorem spares_attempts {request : RateLimitRequest} {first : Attempt} {rest : List Attempt}
    (h : request.attempts = first :: rest) : ∀ other ∈ rest, first.Spares other := by
  -- Where all checks of a request are made at one instant, nothing recorded is too old.
  have hinstant : ∀ now, (∀ attempt ∈ request.attempts, attempt.reading.now = now) →
      ∀ other ∈ rest, first.Spares other := by
    intro now hall other hmem
    rw [h] at hall
    exact .inl ((hall other (List.mem_cons_of_mem _ hmem)).trans (hall first List.mem_cons_self).symm)
  cases request with
  | check config context skip readings =>
    intro other hmem
    have hkeys := @keys_checks_nodup config context skip
    have hattempts : checkAttempts readings 0 (checks config context skip) = first :: rest := h
    rw [← @keys_checkAttempts readings 0, hattempts, List.map_cons, List.nodup_cons] at hkeys
    exact .inr fun heq => hkeys.1 (heq ▸ List.mem_map_of_mem hmem)
  | customLimits policies reading =>
    refine hinstant reading.now fun attempt hmem => ?_
    simp only [RateLimitRequest.attempts] at hmem
    split at hmem
    · obtain ⟨policy, -, rfl⟩ := List.mem_map.mp hmem
      rfl
    · cases hmem
  | checkMany now member checks windows distinct answers =>
    refine hinstant now fun attempt hmem => ?_
    cases answers with
    | none =>
      obtain ⟨check, -, rfl⟩ := List.mem_map.mp hmem
      rfl
    | some answers => exact now_redisAttempts hmem

end Keys

/-! ## Rejected requests -/

end AiPlatform.Dispatch
