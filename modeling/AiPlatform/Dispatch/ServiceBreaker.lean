/-
  AiPlatform.Dispatch.ServiceBreaker

  The circuit breaker of a service in the gateway's dispatcher (`CircuitBreaker`
  of `core/gateway/circuit_breaker.py`) and the calls that pass it.

  Each of `allow`, `_on_success` and `_on_failure` does all it does under the lock,
  with nothing awaited inside, and is one step.  A call is admitted in one step and
  ends in a later one; it may also be cancelled, which records nothing.  Beside what
  the source keeps there are when the breaker last opened, how many failures have
  been recorded since the last success, and how many successes of trial calls have
  been recorded since the opening.
-/

import AiPlatform.Lib.Pool

namespace AiPlatform.Dispatch

open Transition

inductive BreakerState where
  | closed
  | opened
  | halfOpen
  deriving DecidableEq, Repr

structure CircuitBreakerOpenError where
  serviceId : String
  deriving DecidableEq

/-- `excluded_exceptions` as the tests `isinstance(exc, ex)`; `timeout` in ticks of the
    clock. -/
structure BreakerSettings (ε : Type) where
  serviceId : String
  failureThreshold : Int
  successThreshold : Int
  timeout : Int
  excludedExceptions : List (ε → Bool)

structure ServiceBreaker where
  state : BreakerState
  failureCount : Nat
  successCount : Nat
  lastFailureTime : Option Nat
  deriving DecidableEq

namespace ServiceBreaker

variable {ε : Type} (settings : BreakerSettings ε) (breaker : ServiceBreaker) (now : Nat)

def new : ServiceBreaker := ⟨.closed, 0, 0, none⟩

def shouldAttemptReset : Bool :=
  match breaker.lastFailureTime with
  | none => false
  | some lastFailureTime => settings.timeout ≤ (now : Int) - lastFailureTime

def onSuccess : ServiceBreaker :=
  match breaker.state with
  | .halfOpen =>
      let breaker := { breaker with successCount := breaker.successCount + 1 }
      if settings.successThreshold ≤ breaker.successCount then
        { breaker with state := .closed, failureCount := 0, successCount := 0 }
      else breaker
  | .closed => { breaker with failureCount := 0 }
  | .opened => breaker

def onFailure (exc : ε) : ServiceBreaker :=
  if settings.excludedExceptions.any fun isInstance => isInstance exc then breaker
  else
    let breaker :=
      { breaker with failureCount := breaker.failureCount + 1, lastFailureTime := some now }
    if settings.failureThreshold ≤ breaker.failureCount then
      { breaker with state := .opened, successCount := 0 }
    else breaker

def allow : Except CircuitBreakerOpenError ServiceBreaker :=
  match breaker.state with
  | .opened =>
      if breaker.shouldAttemptReset settings now then .ok { breaker with state := .halfOpen }
      else .error ⟨settings.serviceId⟩
  | _ => .ok breaker

end ServiceBreaker

/-! ## Calls -/

structure Service where
  now : Nat
  breaker : ServiceBreaker
  openedAt : Nat
  streak : Nat
  trials : Nat

/-- `admitted` keeps the state the breaker was in when it let the call through. -/
inductive ServiceCall where
  | waiting
  | admitted (state : BreakerState)
  | rejected (error : CircuitBreakerOpenError)
  | ended
  deriving DecidableEq

inductive CallStep (ε : Type) where
  | allow
  | succeed
  | fail (exc : ε)
  | cancel

def Service.new (now : Nat) : Service := ⟨now, .new, 0, 0, 0⟩

namespace Service

variable {ε : Type} (settings : BreakerSettings ε) (s : Service)

/-- A success is recorded. -/
def succeed (admittedIn : BreakerState) : Service :=
  { s with
    breaker := s.breaker.onSuccess settings
    streak := 0
    trials :=
      if s.breaker.state = .halfOpen ∧ admittedIn = .halfOpen then s.trials + 1 else s.trials }

/-- A failure is recorded, unless its exception is excluded. -/
def fail (exc : ε) : Service :=
  let breaker := s.breaker.onFailure settings s.now exc
  if settings.excludedExceptions.any fun isInstance => isInstance exc then
    { s with breaker := breaker }
  else
    let opens := s.breaker.state ≠ .opened ∧ breaker.state = .opened
    { s with
      breaker := breaker
      openedAt := if opens then s.now else s.openedAt
      streak := s.streak + 1
      trials := if opens then 0 else s.trials }

/-- `call`: `allow` first, and then what the function comes to. -/
def act (call : ServiceCall) (step : CallStep ε) : Option (Service × ServiceCall) :=
  match call, step with
  | .waiting, .allow =>
      match s.breaker.allow settings s.now with
      | .ok breaker => some ({ s with breaker := breaker }, .admitted breaker.state)
      | .error error => some (s, .rejected error)
  | .admitted state, .succeed => some (s.succeed settings state, .ended)
  | .admitted _, .fail exc => some (s.fail settings exc, .ended)
  | .waiting, .cancel | .admitted _, .cancel => some (s, .ended)
  | _, _ => none

/-- Calls come at any time, and the clock goes on. -/
def program : Program Service ServiceCall (CallStep ε) Nat where
  act := act settings
  environment s ticks := some { s with now := s.now + ticks }
  admits _ _ call := decide (call = .waiting)
  enter s _ := s

end Service

def calm (now : Nat) : Pool Service ServiceCall := ⟨.new now, []⟩

/-! ## What one step can do -/

variable {ε : Type} {settings : BreakerSettings ε} {s s' : Service} {call call' : ServiceCall}
  {step : CallStep ε}

/-- A step lets a call through or turns it away, records a success or a failure, or
    ends a call with nothing recorded. -/
inductive CallEffect (settings : BreakerSettings ε) (s : Service) (call : ServiceCall)
    (step : CallStep ε) (s' : Service) (call' : ServiceCall) : Prop
  | rejects (opened : s.breaker.state = .opened)
      (early : s.breaker.shouldAttemptReset settings s.now = false) (shared : s' = s)
      (error : call' = .rejected ⟨settings.serviceId⟩)
  | passes (state : s.breaker.state ≠ .opened) (shared : s' = s)
      (admitted : call' = .admitted s.breaker.state)
  | tries (opened : s.breaker.state = .opened)
      (late : s.breaker.shouldAttemptReset settings s.now = true)
      (shared : s' = { s with breaker := { s.breaker with state := .halfOpen } })
      (admitted : call' = .admitted .halfOpen)
  | succeeds (state : BreakerState) (found : call = .admitted state) (succeed : step = .succeed)
      (shared : s' = s.succeed settings state)
  | fails (exc : ε)
      (counted : (settings.excludedExceptions.any fun isInstance => isInstance exc) = false)
      (shared : s' = s.fail settings exc)
  | quiet (ends : step ≠ .allow) (shared : s' = s)

theorem act_effect (h : s.act settings call step = some (s', call')) :
    CallEffect settings s call step s' call' := by
  unfold Service.act at h
  split at h
  · unfold ServiceBreaker.allow at h
    cases hstate : s.breaker.state with
    | opened =>
      rw [hstate] at h
      cases hreset : s.breaker.shouldAttemptReset settings s.now with
      | true =>
        simp only [hreset, if_true] at h
        cases h
        exact .tries hstate hreset rfl rfl
      | false =>
        simp only [hreset, Bool.false_eq_true, if_false] at h
        cases h
        exact .rejects hstate hreset rfl rfl
    | closed =>
      rw [hstate] at h
      cases h
      exact .passes (by rw [hstate]; decide) rfl rfl
    | halfOpen =>
      rw [hstate] at h
      cases h
      exact .passes (by rw [hstate]; decide) rfl rfl
  · rename_i state
    cases h
    exact .succeeds state rfl rfl rfl
  · rename_i exc
    cases h
    cases hexcluded : settings.excludedExceptions.any fun isInstance => isInstance exc with
    | false => exact .fails exc hexcluded rfl
    | true =>
      refine .quiet nofun ?_
      simp only [Service.fail, hexcluded, if_true, ServiceBreaker.onFailure]
  · cases h
    exact .quiet nofun rfl
  · cases h
    exact .quiet nofun rfl
  · cases h

/-! ## The law -/

abbrev ServiceMove (ε : Type) := PoolMove Service ServiceCall (CallStep ε) Nat

variable {x : ServiceMove ε}

def OpensAfterFailures (settings : BreakerSettings ε) (x : ServiceMove ε) : Prop :=
  x.pre.shared.breaker.state = .closed → x.post.shared.breaker.state = .opened →
    settings.failureThreshold ≤ x.post.shared.streak

def RejectsWhileOpen (settings : BreakerSettings ε) (x : ServiceMove ε) : Prop :=
  ∀ i, x.input = .step i .allow → x.pre.shared.breaker.state = .opened →
    (x.pre.shared.now : Int) < x.pre.shared.openedAt + settings.timeout →
    x.post.shared.breaker.state = .opened ∧
      x.post.threads[i]? = some (.rejected ⟨settings.serviceId⟩)

def ClosesAfterTrials (settings : BreakerSettings ε) (x : ServiceMove ε) : Prop :=
  x.pre.shared.breaker.state ≠ .closed → x.post.shared.breaker.state = .closed →
    settings.successThreshold ≤ x.post.shared.trials

/-- A success that is recorded while the breaker is half open is that of a call it let
    through half open. -/
def trialsOnly (x : ServiceMove ε) : Bool :=
  match x.input with
  | .step i .succeed =>
      x.pre.shared.breaker.state ≠ .halfOpen || x.pre.threads[i]? = some (.admitted .halfOpen)
  | _ => true

structure ServiceOk (settings : BreakerSettings ε) (s : Service) : Prop where
  closed : s.breaker.state = .closed →
    (s.breaker.failureCount : Int) < settings.failureThreshold ∧ s.breaker.failureCount ≤ s.streak
  failing : s.breaker.state ≠ .closed → settings.failureThreshold ≤ s.breaker.failureCount
  opened : s.breaker.state = .opened → s.breaker.successCount = 0 ∧
    ∃ lastFailureTime, s.breaker.lastFailureTime = some lastFailureTime ∧ s.openedAt ≤ lastFailureTime
  past : s.openedAt ≤ s.now

/-- The successes counted are those of trial calls. -/
def TrialsOk (s : Service) : Prop :=
  s.breaker.state = .halfOpen → s.breaker.successCount ≤ s.trials

theorem serviceOk_new (now : Nat) (h : 1 ≤ settings.failureThreshold) :
    ServiceOk settings (.new now) where
  closed _ := ⟨Int.lt_of_lt_of_le Int.zero_lt_one h, Nat.le_refl _⟩
  failing hstate := absurd rfl hstate
  opened hstate := by cases hstate
  past := Nat.zero_le _

theorem onFailure_counted {breaker : ServiceBreaker} {now : Nat} {exc : ε}
    (h : (settings.excludedExceptions.any fun isInstance => isInstance exc) = false) :
    breaker.onFailure settings now exc =
      if settings.failureThreshold ≤ (breaker.failureCount + 1 : Nat) then
        ⟨.opened, breaker.failureCount + 1, 0, some now⟩
      else ⟨breaker.state, breaker.failureCount + 1, breaker.successCount, some now⟩ := by
  unfold ServiceBreaker.onFailure
  rw [h]
  rfl

theorem fail_counted {exc : ε}
    (h : (settings.excludedExceptions.any fun isInstance => isInstance exc) = false) :
    (s.fail settings exc).breaker = s.breaker.onFailure settings s.now exc ∧
      (s.fail settings exc).streak = s.streak + 1 ∧ (s.fail settings exc).now = s.now ∧
      ((s.fail settings exc).openedAt = s.now ∨ (s.fail settings exc).openedAt = s.openedAt) := by
  unfold Service.fail
  rw [h]
  refine ⟨rfl, rfl, rfl, ?_⟩
  simp only [Bool.false_eq_true, if_false]
  split
  · exact .inl rfl
  · exact .inr rfl

/-- Below its threshold a breaker that records a failure was closed, and stays so. -/
theorem ServiceOk.fail (hok : ServiceOk settings s) {exc : ε}
    (h : (settings.excludedExceptions.any fun isInstance => isInstance exc) = false) :
    ServiceOk settings (s.fail settings exc) := by
  obtain ⟨hbreaker, hstreak, hnow, hopenedAt⟩ := fail_counted (s := s) h
  have hpast : (s.fail settings exc).openedAt ≤ s.now := by
    rcases hopenedAt with heq | heq
    · exact Nat.le_of_eq heq
    · exact Nat.le_trans (Nat.le_of_eq heq) hok.past
  rw [onFailure_counted h] at hbreaker
  split at hbreaker
  · rename_i hopens
    exact
      { closed := fun hclosed => by rw [hbreaker] at hclosed; cases hclosed
        failing := fun _ => by rw [hbreaker]; exact hopens
        opened := fun _ => by rw [hbreaker]; exact ⟨rfl, s.now, rfl, hpast⟩
        past := hnow ▸ hpast }
  · rename_i hbelow
    have hclosed : s.breaker.state = .closed := by
      by_contra hstate
      have := hok.failing hstate
      omega
    have hstate : (s.fail settings exc).breaker.state = .closed := by rw [hbreaker]; exact hclosed
    exact
      { closed := fun _ => by
          rw [hbreaker, hstreak]
          exact ⟨Int.lt_of_not_ge hbelow, Nat.succ_le_succ (hok.closed hclosed).2⟩
        failing := fun hne => absurd hstate hne
        opened := fun hopened => by rw [hstate] at hopened; cases hopened
        past := hnow ▸ hpast }

theorem ServiceOk.succeed (hok : ServiceOk settings s) (h : 1 ≤ settings.failureThreshold)
    (state : BreakerState) : ServiceOk settings (s.succeed settings state) := by
  have hzero : ((0 : Nat) : Int) < settings.failureThreshold := Int.lt_of_lt_of_le (by decide) h
  have hbreaker : (s.succeed settings state).breaker = s.breaker.onSuccess settings := rfl
  unfold ServiceBreaker.onSuccess at hbreaker
  split at hbreaker
  · rename_i hhalf
    simp only at hbreaker
    split at hbreaker
    · exact
        { closed := fun _ => by rw [hbreaker]; exact ⟨hzero, Nat.zero_le _⟩
          failing := fun hne => absurd (by rw [hbreaker]) hne
          opened := fun hopened => by rw [hbreaker] at hopened; cases hopened
          past := hok.past }
    · exact
        { closed := fun hclosed => by rw [hbreaker, hhalf] at hclosed; cases hclosed
          failing := fun _ => by
            rw [hbreaker]
            exact hok.failing (by rw [hhalf]; decide)
          opened := fun hopened => by rw [hbreaker, hhalf] at hopened; cases hopened
          past := hok.past }
  · rename_i hclosed
    exact
      { closed := fun _ => by rw [hbreaker]; exact ⟨hzero, Nat.zero_le _⟩
        failing := fun hne => absurd (by rw [hbreaker]; exact hclosed) hne
        opened := fun hopened => by rw [hbreaker, hclosed] at hopened; cases hopened
        past := hok.past }
  · rename_i hopened
    exact
      { closed := fun hclosed => by rw [hbreaker, hopened] at hclosed; cases hclosed
        failing := fun hne => by rw [hbreaker] at hne ⊢; exact hok.failing hne
        opened := fun hstate => by rw [hbreaker] at hstate ⊢; exact hok.opened hstate
        past := hok.past }

theorem ServiceOk.effect (hok : ServiceOk settings s) (hthreshold : 1 ≤ settings.failureThreshold)
    (h : CallEffect settings s call step s' call') : ServiceOk settings s' := by
  cases h with
  | rejects opened early shared => exact shared ▸ hok
  | passes state shared => exact shared ▸ hok
  | quiet ends shared => exact shared ▸ hok
  | succeeds state found succeed shared => exact shared ▸ hok.succeed hthreshold state
  | fails exc counted shared => exact shared ▸ hok.fail counted
  | tries opened late shared =>
    subst shared
    exact
      { closed := nofun
        failing := fun _ => hok.failing (by rw [opened]; decide)
        opened := nofun
        past := hok.past }

/-- A move is a step of a call, or the breaker and the counts stay. -/
theorem makes_effect (hx : (Service.program settings).machine.Makes x) :
    (∃ ticks, x.post.shared = { x.pre.shared with now := x.pre.shared.now + ticks }) ∨
      ∃ i step call call', Pool.Acts (Service.program settings) x i step call call' ∧
        CallEffect settings x.pre.shared call step x.post.shared call' := by
  rcases Pool.makes_cases hx with ⟨call, -, -, hpost⟩ | ⟨i, step, call, call', hacts⟩ |
    ⟨ticks, -, hpass, -⟩
  · exact .inl ⟨0, by rw [hpost]; rfl⟩
  · exact .inr ⟨i, step, call, call', hacts, act_effect hacts.act⟩
  · exact .inl ⟨ticks, (Option.some.inj hpass).symm⟩

theorem serviceOk_step (hthreshold : 1 ≤ settings.failureThreshold)
    (hx : (Service.program settings).machine.Makes x) (hok : ServiceOk settings x.pre.shared) :
    ServiceOk settings x.post.shared := by
  rcases makes_effect hx with ⟨ticks, hpost⟩ | ⟨i, step, call, call', -, heffect⟩
  · rw [hpost]
    exact ⟨hok.closed, hok.failing, hok.opened, Nat.le_add_right_of_le hok.past⟩
  · exact hok.effect hthreshold heffect

/-! ## One step -/

theorem ServiceOk.opensAfterFailures (hok : ServiceOk settings x.pre.shared)
    (hx : (Service.program settings).machine.Makes x) : OpensAfterFailures settings x := by
  intro hclosed hopened
  have hsame : x.post.shared.breaker = x.pre.shared.breaker → False := fun hsame => by
    rw [hsame, hclosed] at hopened
    cases hopened
  rcases makes_effect hx with ⟨ticks, hpost⟩ | ⟨i, step, call, call', -, heffect⟩
  · exact (hsame (by rw [hpost])).elim
  · cases heffect with
    | rejects opened early shared => exact (hsame (by rw [shared])).elim
    | passes state shared => exact (hsame (by rw [shared])).elim
    | quiet ends shared => exact (hsame (by rw [shared])).elim
    | tries opened => rw [hclosed] at opened; cases opened
    | succeeds state found succeed shared =>
      rw [shared, Service.succeed, ServiceBreaker.onSuccess, hclosed] at hopened
      cases hopened
    | fails exc counted shared =>
      obtain ⟨hbreaker, hstreak, -⟩ := fail_counted (s := x.pre.shared) counted
      rw [shared] at hopened ⊢
      rw [hbreaker, onFailure_counted counted] at hopened
      split at hopened
      · rename_i hopens
        rw [hstreak]
        have := (hok.closed hclosed).2
        omega
      · rw [hclosed] at hopened
        cases hopened

theorem ServiceOk.rejectsWhileOpen (hok : ServiceOk settings x.pre.shared)
    (hx : (Service.program settings).machine.Makes x) : RejectsWhileOpen settings x := by
  intro i hinput hopened hearly
  rcases Pool.makes_cases hx with ⟨call, hspawn, -⟩ | ⟨j, step, call, call', hacts⟩ | ⟨_, hpass, -⟩
  · rw [hspawn] at hinput
    cases hinput
  · obtain ⟨rfl, rfl⟩ := PoolInput.step.inj (hacts.input.symm.trans hinput)
    obtain ⟨-, last, hlast, hle⟩ := hok.opened hopened
    have hreset : x.pre.shared.breaker.shouldAttemptReset settings x.pre.shared.now = false := by
      rw [ServiceBreaker.shouldAttemptReset, hlast]
      exact decide_eq_false (by omega)
    have hact := hacts.act
    cases hcall : call with
    | waiting =>
      rw [hcall] at hact
      simp only [Service.program, Service.act, ServiceBreaker.allow, hopened, hreset] at hact
      obtain ⟨hshared, hnext⟩ := Prod.mk.inj (Option.some.inj hact)
      refine ⟨hshared ▸ hopened, ?_⟩
      rw [hacts.threads, ← hnext]
      exact (Pool.getElem?_set_iff hacts.found).mpr (.inl ⟨rfl, rfl⟩)
    | admitted state => rw [hcall] at hact; cases hact
    | rejected error => rw [hcall] at hact; cases hact
    | ended => rw [hcall] at hact; cases hact
  · rw [hpass] at hinput
    cases hinput

/-- A success of a trial call counts twice, in the breaker and among the trials. -/
theorem succeed_halfOpen (hhalf : s.breaker.state = .halfOpen) :
    (s.succeed settings .halfOpen).trials = s.trials + 1 ∧
      (s.succeed settings .halfOpen).breaker =
        if settings.successThreshold ≤ (s.breaker.successCount + 1 : Nat) then
          ⟨.closed, 0, 0, s.breaker.lastFailureTime⟩
        else ⟨.halfOpen, s.breaker.failureCount, s.breaker.successCount + 1,
          s.breaker.lastFailureTime⟩ := by
  constructor
  · simp [Service.succeed, hhalf]
  · simp only [Service.succeed, ServiceBreaker.onSuccess, hhalf]

/-- What a step that records only trials while half open does to the successes counted. -/
theorem trialsOk_step (htrials : TrialsOk x.pre.shared) (hok : ServiceOk settings x.pre.shared)
    (hx : (Service.program settings).machine.Makes x) (honly : trialsOnly x = true) :
    TrialsOk x.post.shared ∧ ClosesAfterTrials settings x := by
  have hsame : x.post.shared.breaker = x.pre.shared.breaker →
      x.post.shared.trials = x.pre.shared.trials →
      TrialsOk x.post.shared ∧ ClosesAfterTrials settings x := by
    intro hbreaker hcount
    refine ⟨?_, fun hne hclosed => ?_⟩
    · rw [TrialsOk, hbreaker, hcount]
      exact htrials
    · rw [hbreaker] at hclosed
      exact absurd hclosed hne
  rcases makes_effect hx with ⟨ticks, hpost⟩ | ⟨i, step, call, call', hacts, heffect⟩
  · exact hsame (by rw [hpost]) (by rw [hpost])
  · cases heffect with
    | rejects opened early shared => exact hsame (by rw [shared]) (by rw [shared])
    | passes state shared => exact hsame (by rw [shared]) (by rw [shared])
    | quiet ends shared => exact hsame (by rw [shared]) (by rw [shared])
    | tries opened late shared =>
      constructor
      · intro _
        rw [shared]
        exact Nat.le_trans (Nat.le_of_eq (hok.opened opened).1) (Nat.zero_le _)
      · intro _ hclosed
        rw [shared] at hclosed
        cases hclosed
    | succeeds state found succeed shared =>
      cases hstate : x.pre.shared.breaker.state with
      | closed =>
        constructor
        · intro hhalf
          rw [shared, Service.succeed, ServiceBreaker.onSuccess, hstate] at hhalf
          cases hhalf
        · exact fun hne => absurd hstate hne
      | opened =>
        refine hsame ?_ ?_ <;> rw [shared, Service.succeed]
        · rw [ServiceBreaker.onSuccess, hstate]
        · rw [hstate]
          simp
      | halfOpen =>
        have hfound : x.pre.threads[i]? = some (.admitted .halfOpen) := by
          rw [trialsOnly, hacts.input, succeed] at honly
          simpa [hstate] using honly
        obtain rfl : state = .halfOpen :=
          ServiceCall.admitted.inj (found.symm.trans (Option.some.inj (hacts.found.symm.trans hfound)))
        obtain ⟨hcount, hbreaker⟩ := @succeed_halfOpen _ settings _ hstate
        have hle := htrials hstate
        rw [TrialsOk, ClosesAfterTrials, shared, hcount, hbreaker]
        split
        · rename_i hcloses
          exact ⟨nofun, fun _ _ => by omega⟩
        · exact ⟨fun _ => Nat.succ_le_succ hle, nofun⟩
    | fails exc counted shared =>
      obtain ⟨hbreaker, -⟩ := fail_counted (s := x.pre.shared) counted
      rw [onFailure_counted counted] at hbreaker
      split at hbreaker
      · constructor
        · intro hhalf
          rw [shared, hbreaker] at hhalf
          cases hhalf
        · intro _ hclosed
          rw [shared, hbreaker] at hclosed
          cases hclosed
      · rename_i hbelow
        have hclosed : x.pre.shared.breaker.state = .closed := by
          by_contra hne
          have := hok.failing hne
          omega
        constructor
        · intro hhalf
          rw [shared, hbreaker, hclosed] at hhalf
          cases hhalf
        · exact fun hne => absurd hclosed hne

/-! ## Every run -/

/-- With a threshold of at least one failure the breaker is closed below it, opens after
    that many failures in a row and rejects while it is open.  When only trial calls
    succeed while it is half open, it closes after enough of them. -/
theorem circuit_law {now : Nat} {tr : List (ServiceMove ε)} {final : Pool Service ServiceCall}
    (hthreshold : 1 ≤ settings.failureThreshold)
    (h : Run (Service.program settings).machine (calm now) tr final)
    (honly : ∀ x ∈ tr, trialsOnly x = true) :
    (final.shared.breaker.state = .closed →
      (final.shared.breaker.failureCount : Int) < settings.failureThreshold) ∧
    ∀ x ∈ tr, OpensAfterFailures settings x ∧ RejectsWhileOpen settings x ∧
      ClosesAfterTrials settings x := by
  obtain ⟨hmoves, hfinal⟩ := Run.invariant_when
    (P := fun pool => ServiceOk settings pool.shared ∧ TrialsOk pool.shared)
    (fun _ hx honly hok => ⟨serviceOk_step hthreshold hx hok.1, (trialsOk_step hok.2 hok.1 hx honly).1⟩)
    h honly ⟨serviceOk_new now hthreshold, nofun⟩
  refine ⟨fun hclosed => (hfinal.1.closed hclosed).1, fun x hx => ?_⟩
  obtain ⟨-, -, hmakes⟩ := Run.of_mem h hx
  obtain ⟨hok, htrials⟩ := (hmoves x hx).1
  exact ⟨hok.opensAfterFailures hmakes, hok.rejectsWhileOpen hmakes,
    (trialsOk_step htrials hok hmakes (honly x hx)).2⟩

/-- One failure opens, one success closes; a tick is a millisecond. -/
def sampleService : BreakerSettings Unit := ⟨"models", 1, 1, 10, []⟩

/-- A call opens the breaker, the next one is rejected, and a trial closes it. -/
theorem circuit_law_recovers :
    ∃ tr final, Run (Service.program sampleService).machine (calm 0) tr final ∧
      (∃ x ∈ tr, x.pre.shared.breaker.state = .halfOpen ∧ x.post.shared.breaker.state = .closed) ∧
      (final.shared.breaker.state = .closed →
        (final.shared.breaker.failureCount : Int) < sampleService.failureThreshold) ∧
      ∀ x ∈ tr, OpensAfterFailures sampleService x ∧ RejectsWhileOpen sampleService x ∧
        ClosesAfterTrials sampleService x := by
  obtain ⟨tr, final, hexec, honly, hcloses⟩ :
      ∃ tr final, (Service.program sampleService).machine.exec (calm 0)
          [.spawn .waiting, .step 0 .allow, .step 0 (.fail ()), .spawn .waiting, .step 1 .allow,
            .environment 10, .spawn .waiting, .step 2 .allow, .step 2 .succeed] = some (tr, final) ∧
        (tr.all trialsOnly) = true ∧
        (tr.any fun x => x.pre.shared.breaker.state = .halfOpen ∧
          x.post.shared.breaker.state = .closed) = true :=
    ⟨_, _, rfl, rfl, rfl⟩
  obtain ⟨x, hx, hstates⟩ := List.any_eq_true.mp hcloses
  have hrun := Machine.run_of_exec hexec
  exact ⟨tr, final, hrun, ⟨x, hx, of_decide_eq_true hstates⟩,
    circuit_law (by decide) hrun (List.all_eq_true.mp honly)⟩

/-- A call that was admitted before the opening succeeds while the breaker is half open. -/
theorem closed_by_old_call :
    ¬ ∀ (settings : BreakerSettings Unit) (now : Nat) (tr : List (ServiceMove Unit))
      (final : Pool Service ServiceCall), Run (Service.program settings).machine (calm now) tr final →
      (final.shared.breaker.state = .closed →
        (final.shared.breaker.failureCount : Int) < settings.failureThreshold) ∧
      ∀ x ∈ tr, OpensAfterFailures settings x ∧ RejectsWhileOpen settings x ∧
        ClosesAfterTrials settings x := by
  intro h
  obtain ⟨tr, final, hexec, x, hx, hpre, hpost, htrials⟩ :
      ∃ tr final, (Service.program sampleService).machine.exec (calm 0)
          [.spawn .waiting, .step 0 .allow, .spawn .waiting, .step 1 .allow, .step 1 (.fail ()),
            .environment 10, .spawn .waiting, .step 2 .allow, .step 0 .succeed] = some (tr, final) ∧
        ∃ x ∈ tr, x.pre.shared.breaker.state = .halfOpen ∧ x.post.shared.breaker.state = .closed ∧
          x.post.shared.trials = 0 :=
    ⟨_, _, rfl, _, List.mem_of_getLast? rfl, rfl, rfl, rfl⟩
  have hclose := ((h sampleService 0 tr final (Machine.run_of_exec hexec)).2 x hx).2.2
    (by rw [hpre]; decide) hpost
  rw [htrials] at hclose
  exact absurd hclose (by decide)

end AiPlatform.Dispatch
