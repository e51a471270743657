/-
  AiPlatform.Billing.QuotaLedger

  What `check_quota` decides on, against the ledger of all calls.

  The ledger knows for each limit the value that was given last, and for each
  counter what was recorded since the day or the month began.  The row merges the
  limits in place, so that a limit once given cannot be lifted, and its counters are
  right as long as nothing was recorded between the beginning of the period and the
  run of the job that zeroed them.
-/

import AiPlatform.Billing.QuotaService
import AiPlatform.Lib.Machine
import Mathlib.Algebra.Group.Prod
import Mathlib.Algebra.Ring.Int.Defs

namespace AiPlatform.Billing

open Calendar Metering Transition

/-! ## The values a check decides on -/

structure Decided where
  limits : Limits (Option Int)
  /-- The tokens and the requests of the day. -/
  daily : Int × Int
  /-- The tokens and the cost of the month. -/
  monthly : Int × Int
  deriving DecidableEq, Repr

def UserQuotaRow.decided (quota : UserQuotaRow) : Decided where
  limits := quota.limits
  daily := (quota.currentDailyTokens, quota.currentDailyRequests)
  monthly := (quota.currentMonthlyTokens, quota.currentMonthlyCostCents)

/-- The last value that was given for a limit. -/
def lastGiven (given : List (Option Int)) : Option Int := given.reverse.findSome? id

/-- The limit that stands after the values given for it: the last one, where 0 is
    unlimited, or the one there was. -/
def standingLimit (initial : Option Int) (given : List (Option Int)) : Option Int :=
  match lastGiven given with
  | some value => normalizeLimit (some value)
  | none => initial

/-- All calls on the row of one user. -/
structure Ledger where
  /-- The limits of the row to begin with. -/
  initial : Limits (Option Int)
  /-- The arguments of `set_user_quota`, call after call. -/
  given : List (Limits (Option Int))
  daily : Log (Int × Int)
  monthly : Log (Int × Int)

def Ledger.givenFor (ledger : Ledger) (limit : Limit) : List (Option Int) :=
  ledger.given.map fun limits => limits.get limit

/-- The values a check should decide on. -/
structure Ledger.Entitles (ledger : Ledger) (now : Nat) (decided : Decided) : Prop where
  limits : ∀ limit, decided.limits.get limit =
    standingLimit (ledger.initial.get limit) (ledger.givenFor limit)
  daily : decided.daily = ledger.daily.inPeriod days now
  monthly : decided.monthly = ledger.monthly.inPeriod months now

/-! ## The calls -/

inductive QuotaCall where
  | setUserQuota (args : QuotaArguments)
  | updateUsage (tokensUsed costCents : Int)
  | resetDailyQuotas
  | resetMonthlyQuotas
  | checkQuota (monotonic estimatedTokens : Int)

/-- A call with the instant it is made at. -/
structure TimedCall where
  now : Nat
  call : QuotaCall

structure QuotaState where
  now : Nat
  row : UserQuotaRow
  /-- The requests of the last minute. -/
  requests : List Int
  ledger : Ledger

/-- What the row shows is what the ledger begins with. -/
def QuotaState.start (now : Nat) (row : UserQuotaRow) (requests : List Int) : QuotaState where
  now := now
  row := row
  requests := requests
  ledger :=
    { initial := row.limits
      given := []
      daily := ⟨[], [(now, row.decided.daily)]⟩
      monthly := ⟨[], [(now, row.decided.monthly)]⟩ }

/-- The quota a check has read, and its result. -/
abbrev QuotaReply := Option (UserQuotaRow × QuotaCheckResult)

def runCall (warnings : EffectiveLimits → UserQuotaRow → List String) (now : Nat)
    (s : QuotaState) : QuotaCall → QuotaReply × QuotaState
  | .setUserQuota args =>
      (none, { s with
        now := now
        row := setUserQuota now args (some s.row)
        ledger := { s.ledger with given := s.ledger.given ++ [args.limits] } })
  | .updateUsage tokensUsed costCents =>
      (none, { s with
        now := now
        row := updateUsage tokensUsed costCents s.row
        ledger := { s.ledger with
          daily := s.ledger.daily.record now (tokensUsed, 1)
          monthly := s.ledger.monthly.record now (tokensUsed, costCents) } })
  | .resetDailyQuotas =>
      (none, { s with
        now := now
        row := resetDailyQuotas now s.row
        ledger := { s.ledger with
          daily := if isDue now s.row.dailyResetAt then s.ledger.daily.zero else s.ledger.daily } })
  | .resetMonthlyQuotas =>
      (none, { s with
        now := now
        row := resetMonthlyQuotas now s.row
        ledger := { s.ledger with
          monthly :=
            if isDue now s.row.monthlyResetAt then s.ledger.monthly.zero else s.ledger.monthly } })
  | .checkQuota monotonic estimatedTokens =>
      let quota := getOrCreateQuota now (some s.row)
      let checked := checkQuota warnings now monotonic estimatedTokens quota s.requests
      (some (quota, checked.1), { s with now := now, requests := checked.2 })

/-- One call after the other, at instants that do not decrease. -/
def quotaMachine (warnings : EffectiveLimits → UserQuotaRow → List String) :
    Machine QuotaState TimedCall QuotaReply where
  step s input := if s.now ≤ input.now then some (runCall warnings input.now s input.call) else none

/-! ## The merge of a limit -/

variable {initial value : Option Int} {given : List (Option Int)} {n : Int}

theorem normalizeLimit_some_pos (h : 0 < n) : normalizeLimit (some n) = some n := by
  rw [normalizeLimit, Option.filter_some, if_pos (decide_eq_true h)]

theorem normalizeLimit_eq_none : normalizeLimit value = none ↔ ∀ n, value = some n → n ≤ 0 := by
  cases value with
  | none => exact ⟨fun _ _ => nofun, fun _ => rfl⟩
  | some n =>
    rw [normalizeLimit, Option.filter_some]
    split
    · rename_i hpos
      exact ⟨nofun, fun h => absurd (of_decide_eq_true hpos) (Int.not_lt.mpr (h n rfl))⟩
    · rename_i hpos
      refine ⟨fun _ m hm => ?_, fun _ => rfl⟩
      obtain rfl := Option.some.inj hm
      exact Int.not_lt.mp fun h => hpos (decide_eq_true h)

/-- What the merges make of a limit: the last positive value, or what there was. -/
def mergedLimit (initial : Option Int) (given : List (Option Int)) : Option Int :=
  (given.reverse.findSome? normalizeLimit).or initial

theorem mergedLimit_snoc (initial : Option Int) (given : List (Option Int)) (value : Option Int) :
    mergedLimit initial (given ++ [value]) =
      coalesce (normalizeLimit value) (mergedLimit initial given) := by
  rw [mergedLimit, mergedLimit, coalesce, List.reverse_append, List.reverse_singleton,
    List.singleton_append, List.findSome?_cons]
  cases normalizeLimit value <;> rfl

/-- Where the last value given is 0 or less, no limit was there to be lifted. -/
def NothingLifted (initial : Option Int) (given : List (Option Int)) : Prop :=
  ∀ last, lastGiven given = some last → last ≤ 0 →
    initial = none ∧ ∀ value, some value ∈ given → value ≤ 0

theorem findSome?_normalizeLimit_of_pos {values : List (Option Int)}
    (h : values.findSome? id = some n) (hn : 0 < n) : values.findSome? normalizeLimit = some n := by
  induction values with
  | nil => cases h
  | cons first rest ih =>
    rw [List.findSome?_cons] at h ⊢
    cases first with
    | none => exact ih h
    | some m =>
      obtain rfl : m = n := Option.some.inj h
      rw [normalizeLimit_some_pos hn]

/-- The merges keep the limit that stands exactly when nothing was to be lifted. -/
theorem mergedLimit_eq_iff :
    mergedLimit initial given = standingLimit initial given ↔ NothingLifted initial given := by
  cases hlast : lastGiven given with
  | none =>
    have hnone : given.reverse.findSome? normalizeLimit = none := by
      refine List.findSome?_eq_none_iff.mpr fun value hvalue => ?_
      rw [show value = none from List.findSome?_eq_none_iff.mp hlast value hvalue]
      rfl
    rw [mergedLimit, hnone, standingLimit, hlast, NothingLifted, hlast]
    exact ⟨fun _ _ => nofun, fun _ => rfl⟩
  | some last =>
    have hstanding : standingLimit initial given = normalizeLimit (some last) := by
      rw [standingLimit, hlast]
    rw [hstanding, mergedLimit, NothingLifted, hlast]
    by_cases hpos : 0 < last
    · rw [findSome?_normalizeLimit_of_pos hlast hpos, normalizeLimit_some_pos hpos]
      refine ⟨fun _ n hn hle => ?_, fun _ => rfl⟩
      obtain rfl := Option.some.inj hn
      exact absurd hpos (Int.not_lt.mpr hle)
    · have hle : last ≤ 0 := Int.not_lt.mp hpos
      have hlifted : normalizeLimit (some last) = none := normalizeLimit_eq_none.mpr fun n hn =>
        Option.some.inj hn ▸ hle
      rw [hlifted, Option.or_eq_none_iff, List.findSome?_eq_none_iff]
      constructor
      · rintro ⟨hnone, hinitial⟩ _ _ _
        refine ⟨hinitial, fun value hvalue => ?_⟩
        exact normalizeLimit_eq_none.mp (hnone _ (List.mem_reverse.mpr hvalue)) value rfl
      · intro h
        obtain ⟨hinitial, hgiven⟩ := h last rfl hle
        refine ⟨fun value hvalue => normalizeLimit_eq_none.mpr fun n hn => ?_, hinitial⟩
        exact hgiven n (hn ▸ List.mem_reverse.mp hvalue)

/-! ## The row against the ledger -/

/-- The row holds the merged limits, and what was recorded since the last zeroing. -/
structure RowOk (s : QuotaState) : Prop where
  limits : ∀ limit, s.row.limits.get limit =
    mergedLimit (s.ledger.initial.get limit) (s.ledger.givenFor limit)
  daily : s.row.decided.daily = amounts s.ledger.daily.since
  monthly : s.row.decided.monthly = amounts s.ledger.monthly.since
  dailyInOrder : s.ledger.daily.InOrder s.now
  monthlyInOrder : s.ledger.monthly.InOrder s.now

variable {warnings : EffectiveLimits → UserQuotaRow → List String} {now : Nat} {row : UserQuotaRow}
  {requests : List Int}

theorem inOrder_single (amount : Int × Int) : (⟨[], [(now, amount)]⟩ : Log (Int × Int)).InOrder now where
  past record hmem := by rw [List.mem_singleton.mp hmem]
  zeroed := .inl rfl

theorem rowOk_start : RowOk (.start now row requests) where
  limits _ := rfl
  daily := (add_zero _).symm
  monthly := (add_zero _).symm
  dailyInOrder := inOrder_single _
  monthlyInOrder := inOrder_single _

theorem amounts_record (log : Log (Int × Int)) (amount : Int × Int) :
    amounts (log.record now amount).since = amounts log.since + amount := by
  rw [Log.record, amounts_append]
  exact congrArg _ (add_zero amount)

theorem rowOk_step {x : Move QuotaState TimedCall QuotaReply} (hx : (quotaMachine warnings).Makes x)
    (h : RowOk x.pre) : RowOk x.post := by
  obtain ⟨pre, ⟨now, call⟩, reply, post⟩ := x
  unfold Machine.Makes quotaMachine at hx
  dsimp only at hx h ⊢
  split at hx
  · rename_i hnow
    obtain ⟨-, rfl⟩ := Prod.mk.inj (Option.some.inj hx)
    have hdaily := h.dailyInOrder.mono hnow
    have hmonthly := h.monthlyInOrder.mono hnow
    cases call with
    | setUserQuota args =>
      refine ⟨fun limit => ?_, h.daily, h.monthly, hdaily, hmonthly⟩
      have hgiven : (pre.ledger.given ++ [args.limits]).map (fun limits => limits.get limit) =
          pre.ledger.givenFor limit ++ [args.limits.get limit] := List.map_append
      show ((args.limits.map normalizeLimit).zipWith coalesce pre.row.limits).get limit =
        mergedLimit _ ((pre.ledger.given ++ [args.limits]).map fun limits => limits.get limit)
      rw [hgiven, mergedLimit_snoc, Limits.get_zipWith, Limits.get_map, h.limits limit]
    | updateUsage tokensUsed costCents =>
      refine ⟨h.limits, ?_, ?_, hdaily.record, hmonthly.record⟩
      · exact (congrArg (· + (tokensUsed, (1 : Int))) h.daily).trans (amounts_record _ _).symm
      · exact (congrArg (· + (tokensUsed, costCents)) h.monthly).trans (amounts_record _ _).symm
    | resetDailyQuotas =>
      dsimp only [resetDailyQuotas]
      split
      · exact ⟨h.limits, rfl, h.monthly, hdaily.zero, hmonthly⟩
      · exact ⟨h.limits, h.daily, h.monthly, hdaily, hmonthly⟩
    | resetMonthlyQuotas =>
      dsimp only [resetMonthlyQuotas]
      split
      · exact ⟨h.limits, h.daily, rfl, hdaily, hmonthly.zero⟩
      · exact ⟨h.limits, h.daily, h.monthly, hdaily, hmonthly⟩
    | checkQuota monotonic estimatedTokens => exact ⟨h.limits, h.daily, h.monthly, hdaily, hmonthly⟩
  · cases hx

/-- Once the job has zeroed the day, it is due again from the next day on. -/
theorem isDue_resetDailyQuotas {zeroedAt : Nat} (h : isDue zeroedAt row.dailyResetAt = true) :
    isDue now (resetDailyQuotas zeroedAt row).dailyResetAt = true ↔
      days.index zeroedAt < days.index now := by
  rw [resetDailyQuotas, if_pos h, isDue, Option.all_some, decide_eq_true_iff]
  exact days.next_le zeroedAt now

/-- Once the job has zeroed the month, it is due again from the next month on. -/
theorem isDue_resetMonthlyQuotas {zeroedAt : Nat} (h : isDue zeroedAt row.monthlyResetAt = true) :
    isDue now (resetMonthlyQuotas zeroedAt row).monthlyResetAt = true ↔
      months.index zeroedAt < months.index now := by
  rw [resetMonthlyQuotas, if_pos h, isDue, Option.all_some, decide_eq_true_iff]
  exact months.next_le zeroedAt now

/-! ## Every check of every run -/

/-- No limit was to be lifted, and nothing that counts was recorded between the last
    zeroing and the beginning of the day or of the month. -/
structure Ledger.Undisturbed (ledger : Ledger) (now : Nat) : Prop where
  lifted : ∀ limit, NothingLifted (ledger.initial.get limit) (ledger.givenFor limit)
  daily : amounts (ledger.daily.misplaced days now) = 0
  monthly : amounts (ledger.monthly.misplaced months now) = 0

theorem entitles_iff {s : QuotaState} (h : RowOk s) (hnow : s.now ≤ now) :
    s.ledger.Entitles now s.row.decided ↔ s.ledger.Undisturbed now := by
  have hdaily := @since_eq_inPeriod _ days _ _ _ (h.dailyInOrder.mono hnow)
  have hmonthly := @since_eq_inPeriod _ months _ _ _ (h.monthlyInOrder.mono hnow)
  rw [← h.daily] at hdaily
  rw [← h.monthly] at hmonthly
  have hlimits : ∀ limit, s.row.decided.limits.get limit =
      standingLimit (s.ledger.initial.get limit) (s.ledger.givenFor limit) ↔
        NothingLifted (s.ledger.initial.get limit) (s.ledger.givenFor limit) := fun limit => by
    rw [← mergedLimit_eq_iff, ← h.limits limit]
    rfl
  constructor
  · intro hentitles
    exact ⟨fun limit => (hlimits limit).mp (hentitles.limits limit), hdaily.mp hentitles.daily,
      hmonthly.mp hentitles.monthly⟩
  · intro hundisturbed
    exact ⟨fun limit => (hlimits limit).mpr (hundisturbed.lifted limit),
      hdaily.mpr hundisturbed.daily, hmonthly.mpr hundisturbed.monthly⟩

/-- A row as `_get_or_create_quota` makes it on the fifteenth of January 2026. -/
def sampleRow : UserQuotaRow :=
  { dailyResetAt := some 63904118400000000, monthlyResetAt := some 63905500800000000 }

def sampleNow : Nat := 63904075200000000

example : tomorrow sampleNow = 63904118400000000 := by decide

def sampleLimit (value : Int) : TimedCall where
  now := sampleNow
  call := .setUserQuota
    { limits := ⟨some value, none, none, none, none⟩
      temporaryExtraTokens := some 0
      temporaryExtraCostCents := some 0 }

def sampleCheck : TimedCall := ⟨sampleNow, .checkQuota 0 10⟩

/-- What the ledger knows after a limit of 100 and another value. -/
def sampleLedger (value : Int) : Ledger where
  initial := sampleRow.limits
  given := [⟨some 100, none, none, none, none⟩, ⟨some value, none, none, none, none⟩]
  daily := ⟨[], [(sampleNow, (0, 0))]⟩
  monthly := ⟨[], [(sampleNow, (0, 0))]⟩

theorem makes_call (s : QuotaState) (call : TimedCall) (h : s.now ≤ call.now) :
    (quotaMachine warnings).Makes ⟨s, call, (runCall warnings call.now s call.call).1,
      (runCall warnings call.now s call.call).2⟩ := if_pos h

theorem sampleRun (value : Int) :
    ∃ tr final, Run (quotaMachine fun _ _ => []) (.start sampleNow sampleRow []) tr final ∧
      ∃ x ∈ tr, x.input = sampleCheck ∧ x.pre.ledger = sampleLedger value ∧
        ∃ quota result, x.reply = some (quota, result) ∧
          quota.limits.dailyTokenLimit = coalesce (normalizeLimit (some value)) (some 100) := by
  refine ⟨_, _, .cons (makes_call _ (sampleLimit 100) (Nat.le_refl sampleNow))
    (.cons (makes_call _ (sampleLimit value) (Nat.le_refl sampleNow))
      (.cons (makes_call _ sampleCheck (Nat.le_refl sampleNow)) (.nil _))), _,
    List.mem_cons_of_mem _ (List.mem_cons_of_mem _ (List.mem_singleton_self _)), rfl, rfl, _, _, rfl,
    rfl⟩

theorem sampleLedger_undisturbed : (sampleLedger 200).Undisturbed sampleNow where
  lifted limit last hlast hle := by
    cases limit with
    | dailyTokenLimit =>
      obtain rfl := Option.some.inj hlast
      exact absurd hle (by decide)
    | monthlyTokenLimit | monthlyCostLimitCents | requestsPerMinute | requestsPerDay => cases hlast
  daily := by simp [sampleLedger, Log.misplaced, amounts]
  monthly := by simp [sampleLedger, Log.misplaced, amounts]

end AiPlatform.Billing
