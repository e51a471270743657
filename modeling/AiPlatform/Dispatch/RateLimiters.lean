/-
  AiPlatform.Dispatch.RateLimiters

  The two limiters that check a request against several dimensions: the
  `MultiDimensionRateLimiter` of the gateway and the `SlidingWindowRateLimiter` of
  the HTTP middleware (`rate_limit_http.py`).

  Whatever a limiter does for a request, it checks one policy after another, in
  Redis or in memory, and stops at the first that denies: `attempts` is the list of
  these checks.
-/

import AiPlatform.Dispatch.SlidingWindow

namespace AiPlatform.Dispatch

open Redis

/-- What a limiter keeps in its process, and what is in Redis. -/
structure LimiterStores where
  requests : Requests
  db : WindowDb

/-- The clock and the Redis server as one call finds them: `time.time()`, the member made
    for the call, and whether the script is run. -/
structure Reading where
  now : ℚ
  member : String
  answers : Bool

/-- A batch over one window: in Redis, or in memory where there is no client or the script
    raises. -/
def slidingWindowMany (reading : Reading) (window : Window) (policies : List Policy) (s : LimiterStores) :
    List RateLimitResult × LimiterStores :=
  if reading.answers then
    let (results, db) := redisSlidingWindowMany reading.now window reading.member policies s.db
    (results, { s with db := db })
  else
    let (results, requests) := untilDenied (memorySlidingWindow reading.now window) policies s.requests
    (results, { s with requests := requests })

/-! ## MultiDimensionRateLimiter -/

structure TierLimit where
  requests : Int
  window : Window
  burst : Int

structure MultiDimensionRateLimitConfig where
  globalEnabled : Bool
  globalLimit : Int
  globalWindow : Window
  ipEnabled : Bool
  ipLimit : Int
  ipWindow : Window
  userTierLimits : String → Option TierLimit
  anonymous : TierLimit
  tenantEnabled : Bool
  tenantDefaultLimit : Int
  tenantWindow : Window
  tenantLimits : String → Option Int
  assistantEnabled : Bool
  assistantDefaultLimit : Int
  assistantWindow : Window
  assistantLimits : String → Option Int
  operationLimits : String → Option TierLimit

/-- The fields that may be missing are empty then. -/
structure RateLimitContext where
  ip : String
  userId : String
  userTier : String
  tenantId : String
  assistantId : String
  operation : String

/-- A policy with the window it is checked over. -/
structure Dimension where
  policy : Policy
  window : Window

section MultiDimension

variable (config : MultiDimensionRateLimitConfig) (context : RateLimitContext)

/-- `_check_global` -/
def checkGlobal : Dimension := ⟨⟨"ratelimit:global", config.globalLimit, "global"⟩, config.globalWindow⟩

/-- `_check_ip` -/
def checkIp : Dimension := ⟨⟨"ratelimit:ip:" ++ context.ip, config.ipLimit, "ip"⟩, config.ipWindow⟩

/-- `_check_user` -/
def checkUser : Dimension :=
  let tierLimit := (config.userTierLimits context.userTier).getD config.anonymous
  ⟨⟨"ratelimit:user:" ++ context.userId, tierLimit.requests + tierLimit.burst, "user"⟩, tierLimit.window⟩

/-- `_check_tenant` -/
def checkTenant : Dimension :=
  ⟨⟨"ratelimit:tenant:" ++ context.tenantId,
    (config.tenantLimits context.tenantId).getD config.tenantDefaultLimit, "tenant"⟩, config.tenantWindow⟩

/-- `_check_assistant` -/
def checkAssistant : Dimension :=
  ⟨⟨"ratelimit:assistant:" ++ context.assistantId,
    (config.assistantLimits context.assistantId).getD config.assistantDefaultLimit, "assistant"⟩,
    config.assistantWindow⟩

/-- `_check_operation` -/
def checkOperation (opLimit : TierLimit) : Dimension :=
  ⟨⟨"ratelimit:op:" ++ (context.operation ++ (":" ++
      if context.userId = "" then context.ip else context.userId)),
    opLimit.requests + opLimit.burst, "operation:" ++ context.operation⟩, opLimit.window⟩

/-- The checks `check` makes, in the order it makes them. -/
def checks (skip : String → Bool) : List Dimension :=
  (if config.globalEnabled && !skip "global" then [checkGlobal config] else []) ++
  (if config.ipEnabled && context.ip ≠ "" && !skip "ip" then [checkIp config context] else []) ++
  (if context.userId ≠ "" && !skip "user" then [checkUser config context] else []) ++
  (if config.tenantEnabled && context.tenantId ≠ "" && !skip "tenant" then
    [checkTenant config context] else []) ++
  (if config.assistantEnabled && context.assistantId ≠ "" && !skip "assistant" then
    [checkAssistant config context] else []) ++
  (match config.operationLimits context.operation with
    | some opLimit =>
        if context.operation ≠ "" && !skip "operation" then [checkOperation context opLimit] else []
    | none => [])

/-- `_sliding_window_check` -/
def slidingWindowCheck (dimension : Dimension) (reading : Reading) (s : LimiterStores) :
    RateLimitResult × LimiterStores :=
  let (results, s) := slidingWindowMany reading dimension.window [dimension.policy] s
  (results.getLastD default, s)

/-- The loop of `check`; `allowedResult` is the last allowed result with a limit. -/
def checkLoop (readings : Nat → Reading) : Nat → List Dimension → Option RateLimitResult →
    LimiterStores → RateLimitResult × LimiterStores
  | _, [], allowedResult, s => (allowedResult.getD default, s)
  | i, dimension :: rest, allowedResult, s =>
      let (result, s) := slidingWindowCheck dimension (readings i) s
      if !result.allowed then (result, s)
      else checkLoop readings (i + 1) rest (if 0 < result.limit then some result else allowedResult) s

/-- `check` -/
def check (skip : String → Bool) (readings : Nat → Reading) (s : LimiterStores) :
    RateLimitResult × LimiterStores :=
  checkLoop readings 0 (checks config context skip) none s

end MultiDimension

/-- A policy of `check_custom_limits` as its callers give it. -/
structure CustomPolicy where
  key : String
  requests : Int
  window : Int
  dimension : String

/-- A window of at least a second. -/
def CustomPolicy.atLeastOne (policy : CustomPolicy) : Window :=
  ⟨(max policy.window 1).toNat, by have := Int.le_max_right policy.window 1; omega⟩

def CustomPolicy.normalized (policy : CustomPolicy) : Policy :=
  ⟨policy.key, max policy.requests 1, policy.dimension⟩

/-- `check_custom_limits`; `none` is the `ValueError` of a batch with several windows. -/
def checkCustomLimits (policies : List CustomPolicy) (reading : Reading) (s : LimiterStores) :
    Option (List RateLimitResult × LimiterStores) :=
  match (policies.map CustomPolicy.atLeastOne).dedup with
  | [] => some ([], s)
  | [window] =>
      some (slidingWindowMany reading window (policies.map CustomPolicy.normalized) s)
  | _ => none

/-! ## SlidingWindowRateLimiter -/

structure RateLimitInfo extends RateLimitResult where
  dimensionIndex : Int

/-- A key with its limit and window, as `check_many` is given it. -/
structure Check where
  key : String
  limit : Int
  window : Window

def Check.policy (check : Check) : Policy := ⟨check.key, check.limit, ""⟩

section CheckMany

variable (now : ℚ) (member : String)

/-- What `check_many` returns when no dimension denies. -/
def allowedInfo (checks : List Check) : RateLimitInfo :=
  match checks.getLast? with
  | none => ⟨⟨true, "", 0, 0, truncate now, 0⟩, -1⟩
  | some last => ⟨⟨true, "", last.limit, 0, truncate (now + last.window.val), 0⟩, -1⟩

/-- `_memory_check` -/
def memoryCheck (check : Check) (requests : Requests) : RateLimitResult × Requests :=
  memorySlidingWindow now check.window check.policy requests

/-- The loop of `check_many` over memory. -/
def memoryLoop (all : List Check) : Nat → List Check → Requests → RateLimitInfo × Requests
  | _, [], requests => (allowedInfo now all, requests)
  | index, check :: rest, requests =>
      let (result, requests) := memoryCheck now check requests
      if !result.allowed then (⟨result, index⟩, requests)
      else memoryLoop all (index + 1) rest requests

/-- The checks of one window with their places in the list. -/
def group (checks : List Check) (window : Window) : List (Check × Nat) :=
  checks.zipIdx.filter fun entry => entry.1.window = window

/-- `_redis_check_many` over the windows in the order in which the set gives them;
    `answers` says which scripts are run.  `none` when one raises. -/
def redisCheckMany (checks : List Check) (answers : Nat → Bool) : Nat → List Window → WindowDb →
    Option RateLimitInfo × WindowDb
  | _, [], db => (some (allowedInfo now checks), db)
  | i, window :: rest, db =>
      if answers i then
        let entries := group checks window
        let (response, db) := slidingWindowCheckLua now window member 0
          (entries.map fun entry => entry.1.policy) [] none db
        if response.rejectedIndex < 0 then redisCheckMany checks answers (i + 1) rest db
        else
          match entries[response.rejectedIndex.toNat]? with
          | none => (none, db)
          | some (check, checksIndex) =>
              (some ⟨{ denied now window check.policy response.earliestScore with dimension := "" },
                checksIndex⟩, db)
      else (none, db)

/-- `check_many` after the scripts: what Redis answered, or the checks in memory. -/
def orMemory (checks : List Check) (s : LimiterStores) : Option RateLimitInfo × WindowDb →
    RateLimitInfo × LimiterStores
  | (some info, db) => (info, { s with db := db })
  | (none, db) =>
      let (info, requests) := memoryLoop now checks 0 checks s.requests
      (info, { requests := requests, db := db })

/-- `check_many`; `answers` is `none` without a Redis client. -/
def checkMany (checks : List Check) (windows : List Window) (answers : Option (Nat → Bool))
    (s : LimiterStores) : RateLimitInfo × LimiterStores :=
  match answers with
  | none => orMemory now checks s (none, s.db)
  | some answers => orMemory now checks s (redisCheckMany now member checks answers 0 windows s.db)

end CheckMany

/-! ## A request check by check -/

/-- One policy of a request, with the reading of the call it is part of. -/
structure Attempt where
  reading : Reading
  window : Window
  policy : Policy

namespace Attempt

def check (attempt : Attempt) (s : LimiterStores) : RateLimitResult × LimiterStores :=
  if attempt.reading.answers then
    let (result, db) := redisSlidingWindow attempt.reading.now attempt.window attempt.reading.member
      attempt.policy s.db
    (result, { s with db := db })
  else
    let (result, requests) := memorySlidingWindow attempt.reading.now attempt.window attempt.policy s.requests
    (result, { s with requests := requests })

/-- No dimension denies. -/
def allAllowed (attempts : List Attempt) (s : LimiterStores) : Bool :=
  (untilDenied check attempts s).1.all RateLimitResult.allowed

def after (attempts : List Attempt) (s : LimiterStores) : LimiterStores := (untilDenied check attempts s).2

variable {attempt : Attempt} {first rest : List Attempt} {s : LimiterStores}

@[simp] theorem allAllowed_nil : allAllowed [] s = true := rfl

@[simp] theorem after_nil : after [] s = s := rfl

theorem allAllowed_cons :
    allAllowed (attempt :: rest) s = ((attempt.check s).1.allowed && allAllowed rest (attempt.check s).2) := by
  simp only [allAllowed, untilDenied]
  cases h : (attempt.check s).1.allowed <;> simp [h]

theorem after_cons :
    after (attempt :: rest) s =
      if (attempt.check s).1.allowed then after rest (attempt.check s).2 else (attempt.check s).2 := by
  simp only [after, untilDenied]
  cases (attempt.check s).1.allowed <;> rfl

theorem allAllowed_append :
    allAllowed (first ++ rest) s = (allAllowed first s && allAllowed rest (after first s)) := by
  induction first generalizing s with
  | nil => rfl
  | cons attempt first ih =>
    rw [List.cons_append, allAllowed_cons, allAllowed_cons, after_cons, ih]
    cases (attempt.check s).1.allowed <;> rfl

theorem after_append :
    after (first ++ rest) s = if allAllowed first s then after rest (after first s) else after first s := by
  induction first generalizing s with
  | nil => rfl
  | cons attempt first ih =>
    rw [List.cons_append, after_cons, after_cons, allAllowed_cons, ih]
    cases (attempt.check s).1.allowed <;> rfl

end Attempt

section Attempts

variable {reading : Reading} {window : Window} {policies : List Policy} {s : LimiterStores}

theorem slidingWindowMany_eq :
    slidingWindowMany reading window policies s =
      untilDenied Attempt.check (policies.map (⟨reading, window, ·⟩)) s := by
  unfold slidingWindowMany
  rw [redisSlidingWindowMany_eq]
  cases hanswers : reading.answers with
  | false =>
    rw [if_neg Bool.false_ne_true]
    induction policies generalizing s with
    | nil => rfl
    | cons policy rest ih =>
      simp only [untilDenied, List.map_cons, Attempt.check, hanswers, Bool.false_eq_true, if_false, ← ih]
      split <;> rfl
  | true =>
    rw [if_pos rfl]
    induction policies generalizing s with
    | nil => rfl
    | cons policy rest ih =>
      simp only [untilDenied, List.map_cons, Attempt.check, hanswers, if_true, ← ih]
      split <;> rfl

/-- The attempts of `check` from its `i`-th check on. -/
def checkAttempts (readings : Nat → Reading) : Nat → List Dimension → List Attempt
  | _, [] => []
  | i, dimension :: rest => ⟨readings i, dimension.window, dimension.policy⟩ :: checkAttempts readings (i + 1) rest

theorem slidingWindowCheck_eq {dimension : Dimension} :
    slidingWindowCheck dimension reading s =
      Attempt.check ⟨reading, dimension.window, dimension.policy⟩ s := by
  simp only [slidingWindowCheck, slidingWindowMany_eq, List.map_cons, List.map_nil, untilDenied]
  split <;> rfl

theorem checkLoop_eq {readings : Nat → Reading} {i : Nat} {dimensions : List Dimension}
    {allowedResult : Option RateLimitResult} (hallowed : ∀ result ∈ allowedResult, result.allowed = true) :
    let out := checkLoop readings i dimensions allowedResult s
    (out.1.allowed, out.2) =
      (Attempt.allAllowed (checkAttempts readings i dimensions) s,
        Attempt.after (checkAttempts readings i dimensions) s) := by
  induction dimensions generalizing i allowedResult s with
  | nil =>
    cases allowedResult with
    | none => rfl
    | some result => exact Prod.ext (hallowed result rfl) rfl
  | cons dimension rest ih =>
    simp only [checkLoop, checkAttempts, slidingWindowCheck_eq, Attempt.allAllowed_cons, Attempt.after_cons]
    generalize Attempt.check ⟨readings i, dimension.window, dimension.policy⟩ s = out
    cases hout : out.1.allowed with
    | false => simp [hout]
    | true =>
      simp only [Bool.not_true, Bool.false_eq_true, if_false, Bool.true_and, if_true]
      refine ih fun result hresult => ?_
      split at hresult
      · cases hresult
        exact hout
      · exact hallowed result hresult

variable {now : ℚ} {member : String} {all checks : List Check}

/-- The attempts of `check_many` in memory. -/
def memoryAttempts (now : ℚ) (member : String) (checks : List Check) : List Attempt :=
  checks.map fun check => ⟨⟨now, member, false⟩, check.window, check.policy⟩

/-- The attempts of `check_many` from the `i`-th script on, those in memory included that
    follow a script that raises. -/
def redisAttempts (now : ℚ) (member : String) (checks : List Check) (answers : Nat → Bool) :
    Nat → List Window → List Attempt
  | _, [] => []
  | i, window :: rest =>
      if answers i then
        (group checks window).map (fun entry => ⟨⟨now, member, true⟩, window, entry.1.policy⟩) ++
          redisAttempts now member checks answers (i + 1) rest
      else memoryAttempts now member checks

theorem allowedInfo_allowed : (allowedInfo now checks).allowed = true := by
  unfold allowedInfo
  split <;> rfl

theorem memoryLoop_eq {index : Nat} :
    let out := memoryLoop now all index checks s.requests
    (out.1.allowed, { s with requests := out.2 }) =
      (Attempt.allAllowed (memoryAttempts now member checks) s,
        Attempt.after (memoryAttempts now member checks) s) := by
  induction checks generalizing index s with
  | nil => exact Prod.ext allowedInfo_allowed rfl
  | cons check rest ih =>
    simp only [memoryLoop, memoryCheck, memoryAttempts, List.map_cons, Attempt.allAllowed_cons,
      Attempt.after_cons, Attempt.check, Bool.false_eq_true, if_false]
    by_cases hout : (memorySlidingWindow now check.window check.policy s.requests).1.allowed = true
    · simp only [hout, Bool.not_true, Bool.false_eq_true, if_false, Bool.true_and, if_true]
      exact @ih { s with requests := (memorySlidingWindow now check.window check.policy s.requests).2 }
        (index + 1)
    · rw [Bool.not_eq_true] at hout
      simp [hout]

/-- A batch in Redis by the numbers of its script. -/
theorem script_eq :
    let out := slidingWindowCheckLua now window member 0 policies [] none s.db
    let attempts := policies.map fun policy => (⟨⟨now, member, true⟩, window, policy⟩ : Attempt)
    (Attempt.allAllowed attempts s = true ↔ out.1.rejectedIndex < 0) ∧
      Attempt.after attempts s = { s with db := out.2 } := by
  have hmany := @slidingWindowMany_eq ⟨now, member, true⟩ window policies s
  simp only [Attempt.allAllowed, Attempt.after]
  rw [← hmany, slidingWindowMany, if_pos rfl, rejectedIndex_lt_zero, redisSlidingWindowMany_eq]
  refine ⟨Iff.rfl, ?_⟩
  rw [← redisSlidingWindowMany_eq]
  rfl

theorem orMemory_db {db : WindowDb} {out : Option RateLimitInfo × WindowDb} :
    orMemory now checks { s with db := db } out = orMemory now checks s out := by
  obtain ⟨_ | info, db'⟩ := out <;> rfl

/-- The scripts of `check_many`, and where one raises, the fall back to memory. -/
theorem redisCheckMany_eq {answers : Nat → Bool} {windows : List Window} {i : Nat} :
    let out := orMemory now checks s (redisCheckMany now member checks answers i windows s.db)
    (out.1.allowed, out.2) =
      (Attempt.allAllowed (redisAttempts now member checks answers i windows) s,
        Attempt.after (redisAttempts now member checks answers i windows) s) := by
  induction windows generalizing i s with
  | nil => exact Prod.ext allowedInfo_allowed rfl
  | cons window rest ih =>
    simp only [redisCheckMany, redisAttempts]
    by_cases hanswers : answers i = true
    · rw [if_pos hanswers, if_pos hanswers, Attempt.allAllowed_append, Attempt.after_append]
      have hscript := @script_eq window ((group checks window).map fun entry => entry.1.policy) s now member
      rw [List.map_map] at hscript
      obtain ⟨hallowed, hafter⟩ := hscript
      have hmem := @rejectedIndex_mem now window member
        ((group checks window).map fun entry => entry.1.policy) 0 [] none s.db
      simp only [Function.comp_def] at hallowed hafter
      rw [hafter]
      generalize slidingWindowCheckLua now window member 0
        ((group checks window).map fun entry => entry.1.policy) [] none s.db = out at hallowed hmem ⊢
      by_cases hrejected : out.1.rejectedIndex < 0
      · simp only [if_pos hrejected, hallowed.mpr hrejected, Bool.true_and, if_true]
        have hrest := @ih { s with db := out.2 } (i + 1)
        simp only [orMemory_db] at hrest
        exact hrest
      · have hdenied := Bool.eq_false_iff.mpr (mt hallowed.mp hrejected)
        rw [List.length_map] at hmem
        simp only at hmem
        simp only [if_neg hrejected, hdenied, Bool.false_and, Bool.false_eq_true, if_false]
        rw [List.getElem?_eq_getElem (by omega)]
        rfl
    · rw [if_neg hanswers, if_neg hanswers]
      exact memoryLoop_eq

end Attempts

/-! ## Requests -/

/-- A request to one of the limiters.  `check_many` takes the windows of its checks in the
    order in which a set gives them. -/
inductive RateLimitRequest where
  | check (config : MultiDimensionRateLimitConfig) (context : RateLimitContext) (skip : String → Bool)
      (readings : Nat → Reading)
  | customLimits (policies : List CustomPolicy) (reading : Reading)
  | checkMany (now : ℚ) (member : String) (checks : List Check) (windows : List Window)
      (distinct : windows.Perm (checks.map Check.window).dedup) (answers : Option (Nat → Bool))

namespace RateLimitRequest

/-- Whether the request is allowed; `none` when the limiter raises. -/
def handle (s : LimiterStores) : RateLimitRequest → Option (Bool × LimiterStores)
  | check config context skip readings =>
      let (result, s) := Dispatch.check config context skip readings s
      some (result.allowed, s)
  | customLimits policies reading =>
      (checkCustomLimits policies reading s).map fun out => (out.1.all RateLimitResult.allowed, out.2)
  | checkMany now member checks windows _ answers =>
      let (info, s) := Dispatch.checkMany now member checks windows answers s
      some (info.allowed, s)

/-- The checks the request may come to, in their order. -/
def attempts : RateLimitRequest → List Attempt
  | check config context skip readings => checkAttempts readings 0 (checks config context skip)
  | customLimits policies reading =>
      match (policies.map CustomPolicy.atLeastOne).dedup with
      | [window] => policies.map fun policy => ⟨reading, window, policy.normalized⟩
      | _ => []
  | checkMany now member checks _ _ none => memoryAttempts now member checks
  | checkMany now member checks windows _ (some answers) => redisAttempts now member checks answers 0 windows

theorem handle_eq {request : RateLimitRequest} {s : LimiterStores} {out : Bool × LimiterStores}
    (h : request.handle s = some out) :
    out = (Attempt.allAllowed request.attempts s, Attempt.after request.attempts s) := by
  cases request with
  | check config context skip readings =>
    cases h
    exact checkLoop_eq nofun
  | customLimits policies reading =>
    obtain ⟨found, hfound, rfl⟩ := Option.map_eq_some_iff.mp h
    unfold checkCustomLimits at hfound
    split at hfound
    · rename_i hdedup
      cases hfound
      simp only [attempts, hdedup]
      rfl
    · rename_i hdedup
      cases hfound
      simp only [attempts, hdedup]
      rw [slidingWindowMany_eq, List.map_map]
      rfl
    · cases hfound
  | checkMany now member checks windows distinct answers =>
    cases h
    cases answers with
    | none => exact memoryLoop_eq
    | some answers => exact redisCheckMany_eq

/-- Whether a limiter raises does not depend on what it has counted. -/
theorem handle_eq_none {request : RateLimitRequest} {s s' : LimiterStores} (h : request.handle s = none) :
    request.handle s' = none := by
  cases request with
  | check config context skip readings => cases h
  | customLimits policies reading =>
    simp only [handle, Option.map_eq_none_iff, checkCustomLimits] at h ⊢
    split at h
    · cases h
    · cases h
    · rfl
  | checkMany now member checks windows distinct answers => cases h

end RateLimitRequest

end AiPlatform.Dispatch
