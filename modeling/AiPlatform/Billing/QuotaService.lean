/-
  AiPlatform.Billing.QuotaService

  The row of a user in `user_quotas`, the statements of `QuotaService`
  (`services/billing/quota_service.py`) on it, and what `check_quota` decides from
  it.
-/

import AiPlatform.Lib.Calendar

namespace AiPlatform.Billing

open Calendar

/-! ## The row -/

inductive OverageStrategy where
  | hardBlock
  | rateLimit
  | downgradeModel
  | allowButAlert
  deriving DecidableEq, Repr

/-- The five limits of a user. -/
structure Limits (α : Type) where
  dailyTokenLimit : α
  monthlyTokenLimit : α
  monthlyCostLimitCents : α
  requestsPerMinute : α
  requestsPerDay : α
  deriving DecidableEq, Repr

inductive Limit where
  | dailyTokenLimit
  | monthlyTokenLimit
  | monthlyCostLimitCents
  | requestsPerMinute
  | requestsPerDay
  deriving DecidableEq, Repr

namespace Limits

variable {α β γ : Type}

def get (limits : Limits α) : Limit → α
  | .dailyTokenLimit => limits.dailyTokenLimit
  | .monthlyTokenLimit => limits.monthlyTokenLimit
  | .monthlyCostLimitCents => limits.monthlyCostLimitCents
  | .requestsPerMinute => limits.requestsPerMinute
  | .requestsPerDay => limits.requestsPerDay

def map (f : α → β) (limits : Limits α) : Limits β :=
  ⟨f limits.dailyTokenLimit, f limits.monthlyTokenLimit, f limits.monthlyCostLimitCents,
    f limits.requestsPerMinute, f limits.requestsPerDay⟩

def zipWith (f : α → β → γ) (left : Limits α) (right : Limits β) : Limits γ :=
  ⟨f left.dailyTokenLimit right.dailyTokenLimit, f left.monthlyTokenLimit right.monthlyTokenLimit,
    f left.monthlyCostLimitCents right.monthlyCostLimitCents,
    f left.requestsPerMinute right.requestsPerMinute, f left.requestsPerDay right.requestsPerDay⟩

@[simp] theorem get_map (f : α → β) (limits : Limits α) (limit : Limit) :
    (limits.map f).get limit = f (limits.get limit) := by
  cases limit <;> rfl

@[simp] theorem get_zipWith (f : α → β → γ) (left : Limits α) (right : Limits β) (limit : Limit) :
    (left.zipWith f right).get limit = f (left.get limit) (right.get limit) := by
  cases limit <;> rfl

theorem eq_iff {left right : Limits α} : left = right ↔ ∀ limit, left.get limit = right.get limit := by
  constructor
  · intro h limit
    rw [h]
  · intro h
    cases left
    cases right
    exact congrFun (congr (congr (congr (congrArg Limits.mk (h .dailyTokenLimit))
      (h .monthlyTokenLimit)) (h .monthlyCostLimitCents)) (h .requestsPerMinute)) _ |>.trans
        (congrArg _ (h .requestsPerDay))

end Limits

/-- A row of `user_quotas`; the counters are never `NULL`. -/
structure UserQuotaRow where
  limits : Limits (Option Int) := ⟨none, none, none, none, none⟩
  currentDailyTokens : Int := 0
  currentMonthlyTokens : Int := 0
  currentMonthlyCostCents : Int := 0
  currentDailyRequests : Int := 0
  dailyResetAt : Option Nat
  monthlyResetAt : Option Nat
  isBlocked : Bool := false
  blockedReason : Option String := none
  warningThreshold : Int := 80
  overageStrategy : OverageStrategy := .allowButAlert
  downgradedModel : Option String := none
  temporaryExtraTokens : Int := 0
  temporaryExtraCostCents : Int := 0
  temporaryExpiresAt : Option Nat := none
  deriving DecidableEq, Repr

/-! ## The statements -/

/-- 0 is unlimited. -/
def normalizeLimit (value : Option Int) : Option Int :=
  value.filter fun parsed => decide (0 < parsed)

/-- SQL's `COALESCE(left, right)` -/
def coalesce {α : Type} (left right : Option α) : Option α := left.or right

/-- The keyword arguments of `set_user_quota`, with their defaults. -/
structure QuotaArguments where
  limits : Limits (Option Int) := ⟨none, none, none, none, none⟩
  warningThreshold : Int := 80
  overageStrategy : OverageStrategy := .allowButAlert
  downgradedModel : Option String := none
  temporaryExtraTokens : Option Int := none
  temporaryExtraCostCents : Option Int := none
  temporaryExpiresAt : Option Nat := none
  deriving DecidableEq, Repr

/-- `set_user_quota` at the instant `now`: the `INSERT`, or the update of the row that
    is there. -/
def setUserQuota (now : Nat) (args : QuotaArguments) (row : Option UserQuotaRow) : UserQuotaRow :=
  let limits := args.limits.map normalizeLimit
  match row with
  | none =>
      { limits := limits
        dailyResetAt := some (tomorrow now)
        monthlyResetAt := some (nextMonth now)
        warningThreshold := args.warningThreshold
        overageStrategy := args.overageStrategy
        downgradedModel := args.downgradedModel
        temporaryExtraTokens := args.temporaryExtraTokens.getD 0
        temporaryExtraCostCents := args.temporaryExtraCostCents.getD 0
        temporaryExpiresAt := args.temporaryExpiresAt }
  | some row =>
      { row with
        limits := limits.zipWith coalesce row.limits
        warningThreshold := args.warningThreshold
        overageStrategy := args.overageStrategy
        downgradedModel := coalesce args.downgradedModel row.downgradedModel
        temporaryExtraTokens := args.temporaryExtraTokens.getD row.temporaryExtraTokens
        temporaryExtraCostCents := args.temporaryExtraCostCents.getD row.temporaryExtraCostCents
        temporaryExpiresAt := coalesce args.temporaryExpiresAt row.temporaryExpiresAt }

def updateUsage (tokensUsed costCents : Int) (row : UserQuotaRow) : UserQuotaRow :=
  { row with
    currentDailyTokens := row.currentDailyTokens + tokensUsed
    currentMonthlyTokens := row.currentMonthlyTokens + tokensUsed
    currentMonthlyCostCents := row.currentMonthlyCostCents + costCents
    currentDailyRequests := row.currentDailyRequests + 1 }

/-- `reset_at IS NULL OR reset_at <= now` -/
def isDue (now : Nat) (resetAt : Option Nat) : Bool := resetAt.all fun at' => decide (at' ≤ now)

/-- `reset_daily_quotas`, on one row. -/
def resetDailyQuotas (now : Nat) (row : UserQuotaRow) : UserQuotaRow :=
  if isDue now row.dailyResetAt then
    { row with
      currentDailyTokens := 0
      currentDailyRequests := 0
      dailyResetAt := some (tomorrow now) }
  else row

/-- `reset_monthly_quotas`, on one row. -/
def resetMonthlyQuotas (now : Nat) (row : UserQuotaRow) : UserQuotaRow :=
  if isDue now row.monthlyResetAt then
    { row with
      currentMonthlyTokens := 0
      currentMonthlyCostCents := 0
      monthlyResetAt := some (nextMonth now) }
  else row

/-- `_get_or_create_quota`; the row as `UserQuota` holds it. -/
def getOrCreateQuota (now : Nat) (row : Option UserQuotaRow) : UserQuotaRow :=
  let row := row.getD { dailyResetAt := some (tomorrow now), monthlyResetAt := some (nextMonth now) }
  { row with warningThreshold := if row.warningThreshold = 0 then 80 else row.warningThreshold }

/-! ## The decision -/

inductive QuotaStatus where
  | ok
  | warning
  | exceeded
  | blocked
  deriving DecidableEq, Repr

structure QuotaCheckResult where
  status : QuotaStatus
  message : String
  dailyTokensUsed : Int := 0
  dailyTokensLimit : Option Int := none
  monthlyCostUsed : Int := 0
  monthlyCostLimit : Option Int := none
  dailyRequestsUsed : Int := 0
  dailyRequestsLimit : Option Int := none
  requestsPerMinuteUsed : Int := 0
  requestsPerMinuteLimit : Option Int := none
  retryAfterSeconds : Int := 0
  warningThreshold : Int := 80
  overageStrategy : OverageStrategy := .allowButAlert
  downgradedModel : Option String := none
  deriving DecidableEq, Repr

/-- One second of the monotonic clock. -/
def second : Int := 1000000

/-- `_check_requests_per_minute` on the requests of the user so far: whether the
    request is allowed, how many there are, and after how long to retry. -/
def checkRequestsPerMinute (monotonic : Int) (limit : Option Int) (requests : List Int) :
    (Bool × Int × Int) × List Int :=
  match normalizeLimit limit with
  | none => ((true, 0, 0), requests)
  | some limit =>
      let requests := requests.dropWhile fun timestamp => decide (timestamp < monotonic - 60 * second)
      if limit ≤ requests.length then
        let retryAfter :=
          match requests with
          | [] => 60
          | first :: _ => max (first + 60 * second - monotonic) second / second
        ((false, requests.length, retryAfter), requests)
      else ((true, requests.length + 1, 0), requests ++ [monotonic])

/-- `limit and beyond(limit)`, where a limit of 0 counts as none. -/
def breaks (limit : Option Int) (beyond : Int → Bool) : Bool :=
  limit.any fun limit => limit != 0 && beyond limit

structure EffectiveLimits where
  dailyToken : Option Int
  monthlyCost : Option Int
  monthlyToken : Option Int

/-- The limits with what is temporarily granted beyond them. -/
def effectiveLimits (now : Nat) (quota : UserQuotaRow) : EffectiveLimits :=
  let temporaryActive := quota.temporaryExpiresAt.any fun expires => decide (now < expires)
  let extraTokens := if temporaryActive then quota.temporaryExtraTokens else 0
  let extraCost := if temporaryActive then quota.temporaryExtraCostCents else 0
  { dailyToken := quota.limits.dailyTokenLimit.map (· + extraTokens)
    monthlyCost := quota.limits.monthlyCostLimitCents.map (· + extraCost)
    monthlyToken := quota.limits.monthlyTokenLimit.map (· + extraTokens) }

/-- The limit that is exceeded, but for that of a minute. -/
def exceededLimit (estimatedTokens : Int) (effective : EffectiveLimits) (quota : UserQuotaRow) :
    Option String :=
  if breaks effective.dailyToken fun limit =>
      decide (limit < quota.currentDailyTokens + estimatedTokens) then
    some "Daily token limit exceeded"
  else if breaks effective.monthlyToken fun limit =>
      decide (limit < quota.currentMonthlyTokens + estimatedTokens) then
    some "Monthly token limit exceeded"
  else if breaks effective.monthlyCost fun limit =>
      decide (limit ≤ quota.currentMonthlyCostCents) then
    some "Monthly cost limit exceeded"
  else if breaks quota.limits.requestsPerDay fun limit =>
      decide (limit ≤ quota.currentDailyRequests) then
    some "Daily request limit exceeded"
  else none

/-- `_result` of `check_quota` -/
def quotaResult (effective : EffectiveLimits) (quota : UserQuotaRow) (status : QuotaStatus)
    (message : String) (rpmUsed retryAfterSeconds : Int) : QuotaCheckResult where
  status := status
  message := message
  dailyTokensUsed := quota.currentDailyTokens
  dailyTokensLimit := effective.dailyToken
  monthlyCostUsed := quota.currentMonthlyCostCents
  monthlyCostLimit := effective.monthlyCost
  dailyRequestsUsed := quota.currentDailyRequests
  dailyRequestsLimit := quota.limits.requestsPerDay
  requestsPerMinuteUsed := rpmUsed
  requestsPerMinuteLimit := quota.limits.requestsPerMinute
  retryAfterSeconds := retryAfterSeconds
  warningThreshold := quota.warningThreshold
  overageStrategy := quota.overageStrategy
  downgradedModel := quota.downgradedModel

/-- `_apply_overage_policy` of `check_quota` -/
def applyOveragePolicy (effective : EffectiveLimits) (quota : UserQuotaRow) (baseMessage : String)
    (rpmUsed retryAfterSeconds : Int) : QuotaCheckResult :=
  let result := fun status message => quotaResult effective quota status message rpmUsed retryAfterSeconds
  match quota.overageStrategy with
  | .hardBlock => result .blocked baseMessage
  | .rateLimit => result .exceeded (baseMessage ++ "; strategy=rate_limit")
  | .downgradeModel =>
      let model := quota.downgradedModel.getD ""
      let modelMessage := if model = "" then "" else "; downgrade=" ++ model
      result .exceeded (baseMessage ++ "; strategy=downgrade_model" ++ modelMessage)
  | .allowButAlert => result .exceeded (baseMessage ++ "; strategy=allow_but_alert")

/-- `check_quota` on the quota that was read.  `warnings` are the messages of the
    comparisons of percentages, which are of floats. -/
def checkQuota (warnings : EffectiveLimits → UserQuotaRow → List String) (now : Nat) (monotonic : Int)
    (estimatedTokens : Int) (quota : UserQuotaRow) (requests : List Int) :
    QuotaCheckResult × List Int :=
  if quota.isBlocked then
    let reason := quota.blockedReason.getD ""
    ({ status := .blocked
       message := "User is blocked: " ++ if reason = "" then "Unknown reason" else reason
       requestsPerMinuteLimit := quota.limits.requestsPerMinute
       overageStrategy := quota.overageStrategy
       downgradedModel := quota.downgradedModel }, requests)
  else
    let effective := effectiveLimits now quota
    match exceededLimit estimatedTokens effective quota with
    | some baseMessage => (applyOveragePolicy effective quota baseMessage 0 0, requests)
    | none =>
        match checkRequestsPerMinute monotonic quota.limits.requestsPerMinute requests with
        | ((false, rpmUsed, retryAfter), requests) =>
            (applyOveragePolicy effective quota "Minute request limit exceeded" rpmUsed retryAfter,
              requests)
        | ((true, rpmUsed, _), requests) =>
            match warnings effective quota with
            | [] => (quotaResult effective quota .ok "Quota check passed" rpmUsed 0, requests)
            | messages =>
                (quotaResult effective quota .warning (String.intercalate "; " messages) rpmUsed 0,
                  requests)

end AiPlatform.Billing
