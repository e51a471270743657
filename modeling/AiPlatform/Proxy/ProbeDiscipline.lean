/-
  AiPlatform.Proxy.ProbeDiscipline

  Who may probe a service whose breaker is open, and who may close the breaker.

  `gate` reads the counter and takes the slot in two store calls, and a report does
  not say whose it is.  The breaker keeps its discipline over the runs in which
  neither matters: the slot is taken while a gate would still let a probe through,
  and while the breaker is open only the request that took the slot last reports
  anything that frees it or closes the breaker.
-/

import AiPlatform.Proxy.CircuitBreaker

namespace AiPlatform.Proxy

open Transition

/-! ## The discipline -/

abbrev ProxyMove := PoolMove Shared ProxyRequest Choice Nat

/-- What the request is in flight as, if it is in flight as a probe. -/
def ProxyRequest.inFlight (r : ProxyRequest) : Option Probe := if r.reported then none else r.probe

/-- The probe slot: is it taken, and since when. -/
def Shared.slot (s : Shared) : Bool × Nat := (s.counter.probeInFlight, s.counter.probeStartedAt)

/-- The status is inside `on_response` or `on_failure`. -/
def Status.isReport : Status → Bool
  | reporting _ | releasing | stamping => true
  | _ => false

/-- Of two probes in flight the later one started no sooner than the timeout of the
    earlier one. -/
def OneProbe (breaker : CircuitBreaker) (pool : Pool Shared ProxyRequest) : Prop :=
  breaker.state pool.shared = .opened →
    ∀ (i j : Nat) (first second : ProxyRequest) (p q : Probe), pool.threads[i]? = some first →
      pool.threads[j]? = some second → i ≠ j → first.inFlight = some p → second.inFlight = some q →
      p.startedAt ≤ q.startedAt →
      0 < breaker.recoveryTimeout ∧ p.startedAt + breaker.recoveryTimeout ≤ q.startedAt

def ClosedByProbe (breaker : CircuitBreaker) (x : ProxyMove) : Prop :=
  breaker.state x.pre.shared = .opened → breaker.state x.post.shared = .closed →
    ∃ i r report, x.input = .step i .call ∧ x.pre.threads[i]? = some r ∧
      r.status = .reporting report ∧ report.succeeds = true ∧ r.probe.isSome = true

/-- A report of a request that was admitted before an opening leaves the slot. -/
def KeepsSlot (x : ProxyMove) : Prop :=
  ∀ (i : Nat) (choice : Choice) (r : ProxyRequest) (admission : Admission),
    x.input = .step i choice → x.pre.threads[i]? = some r → r.status.isReport = true →
    r.admission = some admission → admission.openings < x.pre.shared.openings →
    x.post.shared.slot = x.pre.shared.slot

/-! ## When it is kept -/

/-- The store call at hand writes the slot free. -/
def Status.frees : Status → Bool
  | reporting report => report.succeeds || report.fails
  | releasing => true
  | _ => false

def Status.succeeds : Status → Bool
  | reporting report => report.succeeds
  | _ => false

/-- The request is the last one that took the slot. -/
def ProxyRequest.holds (r : ProxyRequest) (s : Shared) : Bool :=
  r.probe.any fun p => p.number = s.claims

namespace CircuitBreaker

variable (breaker : CircuitBreaker)

/-- `gate` would let a request through as the probe. -/
def letsProbe (s : Shared) : Bool :=
  breaker.state s = .opened &&
    (!s.counter.probeInFlight || breaker.timedOut s.counter.probeStartedAt s.now)

/-- While the breaker is open it is the holder that reports, or the slot is free and
    the report does not close the breaker. -/
def allowsReport (s : Shared) (r : ProxyRequest) : Bool :=
  breaker.state s = .closed || r.holds s || (!s.counter.probeInFlight && !r.status.succeeds)

def disciplined (x : ProxyMove) : Bool :=
  match x.input with
  | .step i .call =>
      match x.pre.threads[i]? with
      | some r =>
          (r.status != .claiming || breaker.letsProbe x.pre.shared) &&
            (!r.status.frees || breaker.allowsReport x.pre.shared r)
      | none => true
  | .environment ticks =>
      breaker.state x.pre.shared = .closed ||
        !x.pre.shared.store.expired (x.pre.shared.now + ticks)
  | _ => true

end CircuitBreaker

variable {breaker : CircuitBreaker} {x : ProxyMove} {i : Nat} {r r' : ProxyRequest} {s s' : Shared}
  {choice : Choice} {pool pool' : Pool Shared ProxyRequest}

theorem ne_closed : breaker.state s ≠ .closed ↔ breaker.state s = .opened := by
  cases breaker.state s <;> simp

theorem letsProbe_of_disciplined (h : breaker.disciplined x = true) (hinput : x.input = .step i .call)
    (hfound : x.pre.threads[i]? = some r) (hstatus : r.status = .claiming) :
    breaker.letsProbe x.pre.shared = true := by
  rw [CircuitBreaker.disciplined, hinput] at h
  simp only [hfound, hstatus, Bool.and_eq_true] at h
  simpa using h.1

theorem allowsReport_of_disciplined (h : breaker.disciplined x = true)
    (hinput : x.input = .step i .call) (hfound : x.pre.threads[i]? = some r)
    (hfrees : r.status.frees = true) : breaker.allowsReport x.pre.shared r = true := by
  rw [CircuitBreaker.disciplined, hinput] at h
  simp only [hfound, hfrees, Bool.and_eq_true] at h
  simpa using h.2

theorem allowsReport_opened (h : breaker.allowsReport s r = true)
    (hopened : breaker.state s = .opened) :
    r.holds s = true ∨ s.counter.probeInFlight = false ∧ r.status.succeeds = false := by
  rw [CircuitBreaker.allowsReport, hopened] at h
  simpa using h

/-! ## The numbers of the probes -/

/-- Probes are numbered in the order they took the slot, and one that is still in
    flight when the next one takes it has had its time. -/
structure NumbersOk (breaker : CircuitBreaker) (pool : Pool Shared ProxyRequest) : Prop where
  bound : ∀ (i : Nat) (r : ProxyRequest) (p : Probe), pool.threads[i]? = some r → r.probe = some p →
    p.number ≤ pool.shared.claims ∧ p.startedAt ≤ pool.shared.now
  unique : ∀ (i j : Nat) (first second : ProxyRequest) (p q : Probe),
    pool.threads[i]? = some first → pool.threads[j]? = some second → i ≠ j →
    first.probe = some p → second.probe = some q → p.number ≠ q.number
  late : ∀ (i : Nat) (r : ProxyRequest) (p : Probe), pool.threads[i]? = some r →
    r.inFlight = some p → p.number < pool.shared.claims →
    0 < breaker.recoveryTimeout ∧ p.startedAt + breaker.recoveryTimeout ≤ pool.shared.now
  apart : ∀ (i j : Nat) (first second : ProxyRequest) (p q : Probe),
    pool.threads[i]? = some first → pool.threads[j]? = some second →
    first.inFlight = some p → second.inFlight = some q → p.number < q.number →
    0 < breaker.recoveryTimeout ∧ p.startedAt + breaker.recoveryTimeout ≤ q.startedAt

/-- What the slot says of the probe that took it last. -/
structure SlotOk (breaker : CircuitBreaker) (pool : Pool Shared ProxyRequest) : Prop where
  idle : pool.shared.counter.probeInFlight = false → pool.shared.counter.probeStartedAt = 0
  opened : pool.shared.counter.probeInFlight = true → breaker.state pool.shared = .opened
  holder : pool.shared.counter.probeInFlight = true →
    ∀ (i : Nat) (r : ProxyRequest) (openings : Nat) (p : Probe), pool.threads[i]? = some r →
    r.admission = some ⟨openings, some p⟩ → p.number = pool.shared.claims →
    p.startedAt = pool.shared.counter.probeStartedAt ∧ openings = pool.shared.openings
  freed : pool.shared.counter.probeInFlight = false →
    ∀ (i : Nat) (r : ProxyRequest) (p : Probe), pool.threads[i]? = some r → r.probe = some p →
    p.number = pool.shared.claims → r.reported = true

theorem probe_eq_some {p : Probe} :
    r.probe = some p ↔ ∃ openings, r.admission = some ⟨openings, some p⟩ := by
  unfold ProxyRequest.probe
  constructor
  · intro h
    obtain ⟨⟨openings, probe⟩, hadmission, hprobe⟩ := Option.bind_eq_some_iff.mp h
    cases hprobe
    exact ⟨openings, hadmission⟩
  · rintro ⟨openings, h⟩
    rw [h]
    rfl

theorem inFlight_eq_some {p : Probe} :
    r.inFlight = some p ↔ r.reported = false ∧ r.probe = some p := by
  unfold ProxyRequest.inFlight
  cases r.reported <;> simp

theorem holds_iff : r.holds s = true ↔ ∃ p, r.probe = some p ∧ p.number = s.claims := by
  unfold ProxyRequest.holds
  cases r.probe <;> simp

/-- The probes among the requests were there before, and what was reported stays so. -/
def Descends (pool pool' : Pool Shared ProxyRequest) : Prop :=
  ∀ (i : Nat) (r' : ProxyRequest) (p : Probe), pool'.threads[i]? = some r' → r'.probe = some p →
    ∃ r, pool.threads[i]? = some r ∧ r'.admission = r.admission ∧
      (r.reported = true → r'.reported = true)

theorem Descends.probe (h : Descends pool pool') {p : Probe} (hfound : pool'.threads[i]? = some r')
    (hprobe : r'.probe = some p) : ∃ r, pool.threads[i]? = some r ∧ r.probe = some p := by
  obtain ⟨r, hr, hadmission, -⟩ := h i r' p hfound hprobe
  exact ⟨r, hr, by rw [← hprobe, ProxyRequest.probe, ProxyRequest.probe, hadmission]⟩

theorem Descends.inFlight (h : Descends pool pool') {p : Probe}
    (hfound : pool'.threads[i]? = some r') (hflight : r'.inFlight = some p) :
    ∃ r, pool.threads[i]? = some r ∧ r.inFlight = some p := by
  obtain ⟨hreported, hprobe⟩ := inFlight_eq_some.mp hflight
  obtain ⟨r, hr, hadmission, hstays⟩ := h i r' p hfound hprobe
  refine ⟨r, hr, inFlight_eq_some.mpr ⟨?_, ?_⟩⟩
  · cases hpre : r.reported with
    | false => rfl
    | true => rw [hstays hpre] at hreported; cases hreported
  · rw [← hprobe, ProxyRequest.probe, ProxyRequest.probe, hadmission]

theorem NumbersOk.descends (h : NumbersOk breaker pool) (hthreads : Descends pool pool')
    (hclaims : pool'.shared.claims = pool.shared.claims)
    (hnow : pool.shared.now ≤ pool'.shared.now) : NumbersOk breaker pool' where
  bound i r' p hfound hprobe := by
    obtain ⟨r, hr, hpre⟩ := hthreads.probe hfound hprobe
    obtain ⟨hnumber, hstarted⟩ := h.bound i r p hr hpre
    exact ⟨hclaims ▸ hnumber, Nat.le_trans hstarted hnow⟩
  unique i j first second p q hfirst hsecond hij hp hq := by
    obtain ⟨r₁, hr₁, hp⟩ := hthreads.probe hfirst hp
    obtain ⟨r₂, hr₂, hq⟩ := hthreads.probe hsecond hq
    exact h.unique i j r₁ r₂ p q hr₁ hr₂ hij hp hq
  late i r' p hfound hflight hnumber := by
    obtain ⟨r, hr, hpre⟩ := hthreads.inFlight hfound hflight
    obtain ⟨hpos, hlate⟩ := h.late i r p hr hpre (hclaims ▸ hnumber)
    exact ⟨hpos, by omega⟩
  apart i j first second p q hfirst hsecond hp hq hnumber := by
    obtain ⟨r₁, hr₁, hp⟩ := hthreads.inFlight hfirst hp
    obtain ⟨r₂, hr₂, hq⟩ := hthreads.inFlight hsecond hq
    exact h.apart i j r₁ r₂ p q hr₁ hr₂ hp hq hnumber

/-- The slot is kept with its holder, or it is free and the holder has reported. -/
theorem SlotOk.descends (h : SlotOk breaker pool) (hthreads : Descends pool pool')
    (hclaims : pool'.shared.claims = pool.shared.claims)
    (hkept : pool'.shared.counter.probeInFlight = true →
      pool'.shared.slot = pool.shared.slot ∧ pool'.shared.openings = pool.shared.openings ∧
        breaker.state pool'.shared = breaker.state pool.shared)
    (hidle : pool'.shared.counter.probeInFlight = false → pool'.shared.counter.probeStartedAt = 0)
    (hfreed : pool'.shared.counter.probeInFlight = false → pool.shared.counter.probeInFlight = true →
      ∀ (i : Nat) (r' : ProxyRequest) (p : Probe), pool'.threads[i]? = some r' →
        r'.probe = some p → p.number = pool.shared.claims → r'.reported = true) :
    SlotOk breaker pool' where
  idle := hidle
  opened htaken := by
    obtain ⟨hslot, -, hstate⟩ := hkept htaken
    rw [hstate]
    exact h.opened ((Prod.mk.inj hslot).1.symm.trans htaken)
  holder htaken i r' openings p hfound hadmission hnumber := by
    obtain ⟨hslot, hopenings, -⟩ := hkept htaken
    obtain ⟨htaken', hstarted⟩ := Prod.mk.inj hslot
    obtain ⟨r, hr, heq, -⟩ := hthreads i r' p hfound (probe_eq_some.mpr ⟨openings, hadmission⟩)
    rw [hstarted, hopenings]
    exact h.holder (htaken'.symm.trans htaken) i r openings p hr (heq.symm.trans hadmission)
      (hnumber.trans hclaims)
  freed hfree i r' p hfound hprobe hnumber := by
    rw [hclaims] at hnumber
    cases hpre : pool.shared.counter.probeInFlight with
    | true => exact hfreed hfree hpre i r' p hfound hprobe hnumber
    | false =>
      obtain ⟨r, hr, hadmission, hstays⟩ := hthreads i r' p hfound hprobe
      refine hstays (h.freed hpre i r p hr ?_ hnumber)
      rw [← hprobe, ProxyRequest.probe, ProxyRequest.probe, hadmission]

/-! ## One step -/

/-- A step that does not take the slot. -/
structure Calm (breaker : CircuitBreaker) (s : Shared) (r : ProxyRequest) (choice : Choice)
    (s' : Shared) (r' : ProxyRequest) : Prop where
  claims : s'.claims = s.claims
  now : s'.now = s.now
  request : r'.probe = none ∨
    r'.admission = r.admission ∧ (r.reported = true → r'.reported = true)
  kept : s'.counter.probeInFlight = true → s'.slot = s.slot ∧ s'.openings = s.openings ∧
    breaker.state s' = breaker.state s
  idle : (s.counter.probeInFlight = false → s.counter.probeStartedAt = 0) →
    s'.counter.probeInFlight = false → s'.counter.probeStartedAt = 0
  freed : s'.counter.probeInFlight = false → s.counter.probeInFlight = true →
    choice = .call ∧ r.status.frees = true ∧ r'.reported = true

theorem Calm.of_shared (hshared : s' = s)
    (hrequest : r'.probe = none ∨
      r'.admission = r.admission ∧ (r.reported = true → r'.reported = true)) :
    Calm breaker s r choice s' r' := by
  subst hshared
  exact ⟨rfl, rfl, hrequest, fun _ => ⟨rfl, rfl, rfl⟩, id,
    fun hfree htaken => by rw [hfree] at htaken; cases htaken⟩

/-- The step writes the slot free. -/
theorem Calm.of_free (hcall : choice = .call) (hfrees : r.status.frees = true)
    (hfree : s'.counter.probeInFlight = false) (hstarted : s'.counter.probeStartedAt = 0)
    (hclaims : s'.claims = s.claims) (hnow : s'.now = s.now)
    (hadmission : r'.admission = r.admission) (hreported : r'.reported = true) :
    Calm breaker s r choice s' r' where
  claims := hclaims
  now := hnow
  request := .inr ⟨hadmission, fun _ => hreported⟩
  kept htaken := by rw [hfree] at htaken; cases htaken
  idle _ _ := hstarted
  freed _ _ := ⟨hcall, hfrees, hreported⟩

/-- A step takes the slot, or it is calm. -/
theorem Effect.calm (h : Effect breaker s r choice s' r') :
    (choice = .call ∧ r.status = .claiming ∧ s'.counter = s.counter.setProbe true s.now ∧
      s'.openings = s.openings ∧ s'.claims = s.claims + 1 ∧ s'.now = s.now ∧
      r'.admission = some ⟨s.openings, some ⟨s.claims + 1, s.now⟩⟩) ∨
      Calm breaker s r choice s' r' := by
  cases h with
  | waits shared admission reported =>
    exact .inr (.of_shared shared (.inr ⟨admission, fun h => reported.trans h⟩))
  | admits shared admission =>
    exact .inr (.of_shared shared (.inl (by rw [ProxyRequest.probe, admission]; rfl)))
  | claims call status counter openings claims now admission =>
    exact .inl ⟨call, status, counter, openings, claims, now, admission⟩
  | passes shared free admission reported =>
    exact .inr (.of_shared shared (.inr ⟨admission, fun _ => reported⟩))
  | succeeds call report status success counter openings claims now admission reported =>
    refine .inr (.of_free call ?_ ?_ ?_ claims now admission reported)
    · rw [status, Status.frees, success, Bool.true_or]
    · rw [counter]; rfl
    · rw [counter]; rfl
  | fails call report status failure success counter openings claims now admission reported =>
    refine .inr (.of_free call ?_ ?_ ?_ claims now admission reported)
    · rw [status, Status.frees, failure, Bool.or_true]
    · rw [counter]; rfl
    · rw [counter]; rfl
  | releases call status counter openings claims now admission reported =>
    refine .inr (.of_free call ?_ ?_ ?_ claims now admission reported)
    · rw [status, Status.frees]
    · rw [counter]; rfl
    · rw [counter]; rfl
  | stamps status counter openings claims now admission reported =>
    have hslot : s'.slot = s.slot := by
      rw [Shared.slot, counter, InMemoryCounter.setOpenedAt]
      split <;> rfl
    have hfails : s'.counter.fails = s.counter.fails := by
      rw [counter, InMemoryCounter.setOpenedAt]
      split <;> rfl
    obtain ⟨hflag, hstarted⟩ := Prod.mk.inj hslot
    exact .inr
      { claims := claims
        now := now
        request := .inr ⟨admission, fun h => reported.trans h⟩
        kept := fun _ => ⟨hslot, openings, by rw [state_eq, state_eq, hfails]⟩
        idle := fun hidle hfree => hstarted.trans (hidle (hflag.symm.trans hfree))
        freed := fun hfree htaken => by rw [hflag, htaken] at hfree; cases hfree }

theorem Calm.descends {next : ProxyRequest}
    (h : Calm breaker pool.shared r choice pool'.shared next) (hfound : pool.threads[i]? = some r)
    (hthreads : pool'.threads = pool.threads.set i next) : Descends pool pool' := by
  intro j r' p hj hprobe
  rw [hthreads] at hj
  rcases (Pool.getElem?_set_iff hfound).mp hj with ⟨rfl, rfl⟩ | ⟨-, hj⟩
  · rcases h.request with hnone | hsame
    · rw [hnone] at hprobe
      cases hprobe
    · exact ⟨r, hfound, hsame⟩
  · exact ⟨r', hj, rfl, id⟩

/-- The numbers and the slot are as they should be. -/
structure ProbesOk (breaker : CircuitBreaker) (pool : Pool Shared ProxyRequest) : Prop where
  numbers : NumbersOk breaker pool
  slot : SlotOk breaker pool

/-- A disciplined report that frees a taken slot is the holder's. -/
theorem ProbesOk.holds_of_frees (hok : ProbesOk breaker x.pre) (hdisc : breaker.disciplined x = true)
    (hinput : x.input = .step i .call) (hfound : x.pre.threads[i]? = some r)
    (hfrees : r.status.frees = true) (htaken : x.pre.shared.counter.probeInFlight = true) :
    r.holds x.pre.shared = true := by
  have hallows := allowsReport_of_disciplined hdisc hinput hfound hfrees
  rcases allowsReport_opened hallows (hok.slot.opened htaken) with hholds | ⟨hfree, -⟩
  · exact hholds
  · rw [htaken] at hfree
    cases hfree

theorem ProbesOk.calm_step (hok : ProbesOk breaker x.pre) (hdisc : breaker.disciplined x = true)
    (hacts : Pool.Acts breaker.program x i choice r r')
    (hcalm : Calm breaker x.pre.shared r choice x.post.shared r') : ProbesOk breaker x.post := by
  have hdescends : Descends x.pre x.post := hcalm.descends hacts.found hacts.threads
  refine ⟨hok.numbers.descends hdescends hcalm.claims (Nat.le_of_eq hcalm.now.symm),
    hok.slot.descends hdescends hcalm.claims hcalm.kept (hcalm.idle hok.slot.idle) ?_⟩
  intro hfree htaken j other p hj hprobe hnumber
  obtain ⟨rfl, hfrees, hreported⟩ := hcalm.freed hfree htaken
  obtain ⟨q, hq, hqnumber⟩ :=
    holds_iff.mp (hok.holds_of_frees hdisc hacts.input hacts.found hfrees htaken)
  rw [hacts.threads] at hj
  rcases (Pool.getElem?_set_iff hacts.found).mp hj with ⟨rfl, rfl⟩ | ⟨hne, hj⟩
  · exact hreported
  · exact absurd (hqnumber.trans hnumber.symm)
      (hok.numbers.unique i j r other q p hacts.found hj hne hq hprobe)

/-- When a gate takes the slot, every probe in flight has had its time. -/
theorem ProbesOk.late_of_letsProbe (hok : ProbesOk breaker pool)
    (hlets : breaker.letsProbe pool.shared = true) {p : Probe}
    (hfound : pool.threads[i]? = some r) (hflight : r.inFlight = some p) :
    0 < breaker.recoveryTimeout ∧ p.startedAt + breaker.recoveryTimeout ≤ pool.shared.now := by
  obtain ⟨hreported, hprobe⟩ := inFlight_eq_some.mp hflight
  rcases Nat.lt_or_eq_of_le (hok.numbers.bound i r p hfound hprobe).1 with hlt | heq
  · exact hok.numbers.late i r p hfound hflight hlt
  · rw [CircuitBreaker.letsProbe, Bool.and_eq_true, Bool.or_eq_true, Bool.not_eq_true'] at hlets
    cases htaken : pool.shared.counter.probeInFlight with
    | false =>
      rw [hok.slot.freed htaken i r p hfound hprobe heq] at hreported
      cases hreported
    | true =>
      rcases hlets.2 with hfree | htimed
      · rw [htaken] at hfree
        cases hfree
      · obtain ⟨openings, hadmission⟩ := probe_eq_some.mp hprobe
        obtain ⟨hstarted, -⟩ := hok.slot.holder htaken i r openings p hfound hadmission heq
        rw [← hstarted] at htimed
        simp only [CircuitBreaker.timedOut, Bool.and_eq_true, decide_eq_true_eq] at htimed
        exact ⟨htimed.1.1, by omega⟩

/-- A gate takes the slot. -/
structure TakesSlot (breaker : CircuitBreaker) (pool : Pool Shared ProxyRequest) (i : Nat)
    (r r' : ProxyRequest) (pool' : Pool Shared ProxyRequest) : Prop where
  lets : breaker.letsProbe pool.shared = true
  found : pool.threads[i]? = some r
  threads : pool'.threads = pool.threads.set i r'
  counter : pool'.shared.counter = pool.shared.counter.setProbe true pool.shared.now
  openings : pool'.shared.openings = pool.shared.openings
  claims : pool'.shared.claims = pool.shared.claims + 1
  now : pool'.shared.now = pool.shared.now
  admission : r'.admission =
    some ⟨pool.shared.openings, some ⟨pool.shared.claims + 1, pool.shared.now⟩⟩

namespace TakesSlot

/-- A request is the one that took the slot, with the newest number, or it was there. -/
theorem thread_cases (h : TakesSlot breaker pool i r r' pool') {j : Nat} {other : ProxyRequest}
    (hj : pool'.threads[j]? = some other) :
    (i = j ∧ r' = other ∧ ∀ p, other.probe = some p →
        p = ⟨pool.shared.claims + 1, pool.shared.now⟩) ∨
      i ≠ j ∧ pool.threads[j]? = some other := by
  rw [h.threads] at hj
  rcases (Pool.getElem?_set_iff h.found).mp hj with ⟨hij, rfl⟩ | hold
  · refine .inl ⟨hij, rfl, fun p hp => ?_⟩
    rw [ProxyRequest.probe, h.admission] at hp
    exact (Option.some.inj hp).symm
  · exact .inr hold

theorem numbers (h : TakesSlot breaker pool i r r' pool') (hok : ProbesOk breaker pool) :
    NumbersOk breaker pool' where
  bound j other p hj hp := by
    rw [h.claims, h.now]
    rcases h.thread_cases hj with ⟨-, -, hnew⟩ | ⟨-, hj⟩
    · rw [hnew p hp]
      exact ⟨Nat.le_refl _, Nat.le_refl _⟩
    · obtain ⟨hnumber, hstarted⟩ := hok.numbers.bound j other p hj hp
      exact ⟨Nat.le_succ_of_le hnumber, hstarted⟩
  unique j k first second p q hfirst hsecond hjk hp hq := by
    rcases h.thread_cases hfirst with ⟨hij, -, hnew⟩ | ⟨-, hj⟩
    · rcases h.thread_cases hsecond with ⟨hik, -, -⟩ | ⟨-, hk⟩
      · exact absurd (hij.symm.trans hik) hjk
      · rw [hnew p hp]
        exact Nat.ne_of_gt (Nat.lt_succ_of_le (hok.numbers.bound k second q hk hq).1)
    · rcases h.thread_cases hsecond with ⟨-, -, hnew⟩ | ⟨-, hk⟩
      · rw [hnew q hq]
        exact Nat.ne_of_lt (Nat.lt_succ_of_le (hok.numbers.bound j first p hj hp).1)
      · exact hok.numbers.unique j k first second p q hj hk hjk hp hq
  late j other p hj hflight hnumber := by
    rw [h.now]
    rcases h.thread_cases hj with ⟨-, -, hnew⟩ | ⟨-, hj⟩
    · rw [hnew p (inFlight_eq_some.mp hflight).2, h.claims] at hnumber
      exact absurd hnumber (Nat.lt_irrefl _)
    · exact hok.late_of_letsProbe h.lets hj hflight
  apart j k first second p q hfirst hsecond hp hq hnumber := by
    rcases h.thread_cases hfirst with ⟨-, -, hnew⟩ | ⟨-, hj⟩
    · rw [hnew p (inFlight_eq_some.mp hp).2] at hnumber
      rcases h.thread_cases hsecond with ⟨-, -, hnew⟩ | ⟨-, hk⟩
      · rw [hnew q (inFlight_eq_some.mp hq).2] at hnumber
        exact absurd hnumber (Nat.lt_irrefl _)
      · have hle := (hok.numbers.bound k second q hk (inFlight_eq_some.mp hq).2).1
        exact absurd (Nat.le_succ_of_le hle) (Nat.not_le_of_lt hnumber)
    · rcases h.thread_cases hsecond with ⟨-, -, hnew⟩ | ⟨-, hk⟩
      · rw [hnew q (inFlight_eq_some.mp hq).2]
        exact hok.late_of_letsProbe h.lets hj hp
      · exact hok.numbers.apart j k first second p q hj hk hp hq hnumber

theorem slot (h : TakesSlot breaker pool i r r' pool') (hok : ProbesOk breaker pool) :
    SlotOk breaker pool' := by
  have htaken : pool'.shared.counter.probeInFlight = true := by rw [h.counter]; rfl
  have hnever : pool'.shared.counter.probeInFlight ≠ false := by simp [htaken]
  constructor
  · exact fun hfree => absurd hfree hnever
  · intro _
    have hopened := h.lets
    rw [CircuitBreaker.letsProbe, Bool.and_eq_true, decide_eq_true_eq, state_eq] at hopened
    rw [state_eq, h.counter]
    exact hopened.1
  · intro _ j other openings p hj hadmission hnumber
    rw [h.claims] at hnumber
    rcases h.thread_cases hj with ⟨-, rfl, hnew⟩ | ⟨-, hj⟩
    · rw [h.admission] at hadmission
      cases hadmission
      exact ⟨by rw [h.counter]; rfl, h.openings.symm⟩
    · have hle := (hok.numbers.bound j other p hj (probe_eq_some.mpr ⟨openings, hadmission⟩)).1
      omega
  · exact fun hfree => absurd hfree hnever

end TakesSlot

/-- Time passes, and the key of an open breaker lives on. -/
theorem ProbesOk.pass_step (hok : ProbesOk breaker pool) {ticks : Nat}
    (hdisc : breaker.state pool.shared = .closed ∨
      pool.shared.store.expired (pool.shared.now + ticks) = false)
    (hshared : pool'.shared = { pool.shared with now := pool.shared.now + ticks })
    (hthreads : pool'.threads = pool.threads) : ProbesOk breaker pool' := by
  have hdescends : Descends pool pool' := fun i r' p hfound _ => ⟨r', hthreads ▸ hfound, rfl, id⟩
  have hclaims : pool'.shared.claims = pool.shared.claims := by rw [hshared]
  have hcounter : pool'.shared.counter = pool.shared.store.counter (pool.shared.now + ticks) := by
    rw [hshared]
    rfl
  refine ⟨hok.numbers.descends hdescends hclaims (by rw [hshared]; exact Nat.le_add_right ..), ?_⟩
  rcases pool.shared.store.counter_later (Nat.le_add_right pool.shared.now ticks) with
    hsame | ⟨hexpired, hnew⟩
  · have heq : pool'.shared.counter = pool.shared.counter := hcounter.trans hsame
    refine hok.slot.descends hdescends hclaims (fun _ => ⟨?_, by rw [hshared], ?_⟩) ?_ ?_
    · rw [Shared.slot, Shared.slot, heq]
    · rw [state_eq, state_eq, heq]
    · rw [heq]
      exact hok.slot.idle
    · intro hfree htaken
      rw [heq, htaken] at hfree
      cases hfree
  · have heq : pool'.shared.counter = .new := hcounter.trans hnew
    have hclosed : breaker.state pool.shared = .closed := by
      rcases hdisc with hclosed | hlives
      · exact hclosed
      · rw [hexpired] at hlives
        cases hlives
    refine hok.slot.descends hdescends hclaims (fun htaken => ?_) (fun _ => by rw [heq]; rfl)
      fun _ htaken => ?_
    · rw [heq] at htaken
      cases htaken
    · have hopened := hok.slot.opened htaken
      rw [hclosed] at hopened
      cases hopened

theorem probesOk_step (hx : breaker.program.machine.Makes x) (hdisc : breaker.disciplined x = true)
    (hok : ProbesOk breaker x.pre) : ProbesOk breaker x.post := by
  rcases Pool.makes_cases hx with ⟨thread, hinput, hadmits, hpost⟩ |
    ⟨i, choice, r, r', hacts⟩ | ⟨ticks, hinput, hpass, hthreads⟩
  · obtain ⟨-, hadmission, -⟩ := of_decide_eq_true hadmits
    have hdescends : Descends x.pre x.post := by
      intro j r' p hj hprobe
      rw [hpost] at hj
      rcases Pool.getElem?_push_iff.mp hj with hj | ⟨-, rfl⟩
      · exact ⟨r', hj, rfl, id⟩
      · rw [ProxyRequest.probe, hadmission] at hprobe
        cases hprobe
    have hshared : x.post.shared = x.pre.shared := by rw [hpost]; rfl
    refine ⟨hok.numbers.descends hdescends (by rw [hshared]) (Nat.le_of_eq (by rw [hshared])),
      hok.slot.descends hdescends (by rw [hshared]) ?_ ?_ ?_⟩ <;> rw [hshared]
    · exact fun _ => ⟨rfl, rfl, rfl⟩
    · exact hok.slot.idle
    · intro hfree htaken
      rw [hfree] at htaken
      cases htaken
  · rcases (act_effect hacts.act).calm with
      ⟨rfl, hstatus, hcounter, hopenings, hclaims, hnow, hadmission⟩ | hcalm
    · have htakes : TakesSlot breaker x.pre i r r' x.post :=
        ⟨letsProbe_of_disciplined hdisc hacts.input hacts.found hstatus, hacts.found, hacts.threads,
          hcounter, hopenings, hclaims, hnow, hadmission⟩
      exact ⟨htakes.numbers hok, htakes.slot hok⟩
    · exact hok.calm_step hdisc hacts hcalm
  · rw [CircuitBreaker.disciplined, hinput, Bool.or_eq_true, decide_eq_true_eq,
      Bool.not_eq_true'] at hdisc
    exact hok.pass_step hdisc (Option.some.inj hpass).symm hthreads

/-- Only the holder's success takes an open breaker back to closed. -/
theorem ProbesOk.closedByProbe (hx : breaker.program.machine.Makes x)
    (hdisc : breaker.disciplined x = true) : ClosedByProbe breaker x := by
  intro hopened hclosed
  have hstays : ∀ fails, x.pre.shared.counter.fails ≤ fails →
      x.post.shared.counter.fails = fails → False := by
    intro fails hle hfails
    rw [state_eq, hfails, stateOf_eq_closed] at hclosed
    rw [state_eq, stateOf_eq_opened] at hopened
    omega
  have hshared : x.post.shared = x.pre.shared → False := fun hshared =>
    hstays _ (Nat.le_refl _) (by rw [hshared])
  rcases Pool.makes_cases hx with ⟨thread, -, -, hpost⟩ |
    ⟨i, choice, r, r', hacts⟩ | ⟨ticks, hinput, hpass, -⟩
  · exact absurd (by rw [hpost]; rfl) hshared
  · cases act_effect hacts.act with
    | waits shared => exact absurd shared hshared
    | admits shared => exact absurd shared hshared
    | passes shared => exact absurd shared hshared
    | claims call status counter => exact (hstays _ (Nat.le_refl _) (by rw [counter]; rfl)).elim
    | releases call status counter => exact (hstays _ (Nat.le_refl _) (by rw [counter]; rfl)).elim
    | fails call report status failure success counter =>
      exact (hstays _ (Nat.le_succ _) (by rw [counter]; rfl)).elim
    | stamps status counter =>
      refine (hstays _ (Nat.le_refl _) ?_).elim
      rw [counter, InMemoryCounter.setOpenedAt]
      split <;> rfl
    | succeeds call report status success =>
      subst call
      have hfrees : r.status.frees = true := by rw [status, Status.frees, success, Bool.true_or]
      have hallows := allowsReport_of_disciplined hdisc hacts.input hacts.found hfrees
      rcases allowsReport_opened hallows hopened with hholds | ⟨-, hfails⟩
      · obtain ⟨p, hp, -⟩ := holds_iff.mp hholds
        exact ⟨i, r, report, hacts.input, hacts.found, status, success, by rw [hp]; rfl⟩
      · rw [status, Status.succeeds, success] at hfails
        cases hfails
  · rw [CircuitBreaker.disciplined, hinput, hopened] at hdisc
    have hcounter : x.post.shared.counter =
        x.pre.shared.store.counter (x.pre.shared.now + ticks) := by
      rw [(Option.some.inj hpass).symm]
      rfl
    rcases x.pre.shared.store.counter_later (Nat.le_add_right x.pre.shared.now ticks) with
      hsame | ⟨hexpired, -⟩
    · exact (hstays _ (Nat.le_refl _) (by rw [hcounter, hsame]; rfl)).elim
    · simp only [hexpired] at hdisc
      cases hdisc

/-- A request admitted before an opening is not the holder of a taken slot. -/
theorem ProbesOk.keepsSlot (hok : ProbesOk breaker x.pre) (hx : breaker.program.machine.Makes x)
    (hdisc : breaker.disciplined x = true) : KeepsSlot x := by
  intro i choice r admission hinput hfound hreport hadmission hbefore
  rcases Pool.makes_cases hx with ⟨thread, hspawn, -, -⟩ |
    ⟨j, choice', other, r', hacts⟩ | ⟨ticks, hpass, -, -⟩
  · rw [hspawn] at hinput
    cases hinput
  · obtain ⟨rfl, rfl⟩ := PoolInput.step.inj (hacts.input.symm.trans hinput)
    obtain rfl : other = r := Option.some.inj (hacts.found.symm.trans hfound)
    rcases (act_effect hacts.act).calm with ⟨-, hstatus, -⟩ | hcalm
    · rw [hstatus] at hreport
      cases hreport
    · cases hpost : x.post.shared.counter.probeInFlight with
      | true => exact (hcalm.kept hpost).1
      | false =>
        cases hpre : x.pre.shared.counter.probeInFlight with
        | false =>
          rw [Shared.slot, Shared.slot, hpre, hpost, hok.slot.idle hpre,
            hcalm.idle hok.slot.idle hpost]
        | true =>
          obtain ⟨rfl, hfrees, -⟩ := hcalm.freed hpost hpre
          obtain ⟨p, hp, hnumber⟩ :=
            holds_iff.mp (hok.holds_of_frees hdisc hinput hfound hfrees hpre)
          obtain ⟨openings, hsame⟩ := probe_eq_some.mp hp
          obtain ⟨-, hopenings⟩ := hok.slot.holder hpre j other openings p hfound hsame hnumber
          rw [hadmission] at hsame
          cases hsame
          exact absurd hopenings (Nat.ne_of_lt hbefore)
  · rw [hpass] at hinput
    cases hinput

/-! ## Every run -/

theorem probesOk_idle {store : CounterStore} {now : Nat} (h : store.counter now = .new) :
    ProbesOk breaker (idle now store) where
  numbers :=
    { bound := fun _ _ _ hfound => by cases hfound
      unique := fun _ _ _ _ _ _ hfound => by cases hfound
      late := fun _ _ _ hfound => by cases hfound
      apart := fun _ _ _ _ _ _ hfound => by cases hfound }
  slot :=
    { idle := fun _ => congrArg InMemoryCounter.probeStartedAt h
      opened := fun htaken =>
        absurd ((congrArg InMemoryCounter.probeInFlight h).symm.trans htaken) (by decide)
      holder := fun _ _ _ _ _ hfound => by cases hfound
      freed := fun _ _ _ _ hfound => by cases hfound }

theorem ProbesOk.oneProbe (hok : ProbesOk breaker pool) : OneProbe breaker pool := by
  intro _ i j first second p q hfirst hsecond hij hp hq hle
  have hp' := (inFlight_eq_some.mp hp).2
  have hq' := (inFlight_eq_some.mp hq).2
  rcases Nat.lt_or_gt_of_ne (hok.numbers.unique i j first second p q hfirst hsecond hij hp' hq') with
    hlt | hgt
  · exact hok.numbers.apart i j first second p q hfirst hsecond hp hq hlt
  · have := hok.numbers.apart j i second first q p hsecond hfirst hq hp hgt
    omega

/-- In a run whose steps are all disciplined there is one probe at a time, only a probe
    closes the breaker, and late reports leave the slot. -/
theorem probe_discipline {store : CounterStore} {now : Nat} {tr : List ProxyMove}
    {final : Pool Shared ProxyRequest} (hstore : store.counter now = .new)
    (h : Run breaker.program.machine (idle now store) tr final)
    (hdisc : ∀ x ∈ tr, breaker.disciplined x = true) :
    OneProbe breaker final ∧ ∀ x ∈ tr, ClosedByProbe breaker x ∧ KeepsSlot x := by
  obtain ⟨hmoves, hfinal⟩ := Run.invariant_when
    (fun _ hx hdisc hok => probesOk_step hx hdisc hok) h hdisc (probesOk_idle hstore)
  refine ⟨hfinal.oneProbe, fun x hx => ?_⟩
  obtain ⟨-, -, hmakes⟩ := Run.of_mem h hx
  exact ⟨ProbesOk.closedByProbe hmakes (hdisc x hx), (hmoves x hx).1.keepsSlot hmakes (hdisc x hx)⟩

/-- Opens at the first failure; a tick is a millisecond. -/
def sampleBreaker : CircuitBreaker := ⟨"models", 1, 30000⟩

/-- A failure opens the breaker, and the success of the probe closes it. -/
theorem probe_discipline_recovers :
    ∃ tr final, Run sampleBreaker.program.machine (idle 1 (.inMemory .new)) tr final ∧
      sampleBreaker.state final.shared = .closed ∧ (∃ x ∈ tr, sampleBreaker.state x.pre.shared = .opened) ∧
      OneProbe sampleBreaker final ∧ ∀ x ∈ tr, ClosedByProbe sampleBreaker x ∧ KeepsSlot x := by
  obtain ⟨tr, final, hexec, hdisc, hstate, hopened⟩ :
      ∃ tr final, sampleBreaker.program.machine.exec (idle 1 (.inMemory .new))
          [.spawn .new, .step 0 .call, .step 0 (.report .failure), .step 0 .call, .step 0 .call,
            .spawn .new, .step 1 .call, .step 1 .call, .step 1 (.report (.response 200)),
            .step 1 .call] = some (tr, final) ∧
        (tr.all fun x => sampleBreaker.disciplined x) = true ∧
        sampleBreaker.state final.shared = .closed ∧
        (tr.any fun x => sampleBreaker.state x.pre.shared = .opened) = true :=
    ⟨_, _, rfl, rfl, rfl, rfl⟩
  obtain ⟨x, hx, hxopened⟩ := List.any_eq_true.mp hopened
  have hrun := Machine.run_of_exec hexec
  exact ⟨tr, final, hrun, hstate, ⟨x, hx, of_decide_eq_true hxopened⟩,
    probe_discipline rfl hrun (List.all_eq_true.mp hdisc)⟩

/-- Of two requests admitted while the breaker was closed one fails and opens it, a
    third one takes the slot, and the success of the other one closes the breaker. -/
theorem closed_by_late_success :
    ¬ ∀ (breaker : CircuitBreaker) (store : CounterStore) (now : Nat) (tr : List ProxyMove)
      (final : Pool Shared ProxyRequest), store.counter now = .new →
      Run breaker.program.machine (idle now store) tr final →
      OneProbe breaker final ∧ ∀ x ∈ tr, ClosedByProbe breaker x ∧ KeepsSlot x := by
  intro h
  obtain ⟨tr, final, hexec, x, hx, hopened, hclosed, r, hinput, hfound, hprobe⟩ :
      ∃ tr final, sampleBreaker.program.machine.exec (idle 1 (.inMemory .new))
          [.spawn .new, .step 0 .call, .spawn .new, .step 1 .call, .step 0 (.report .failure),
            .step 0 .call, .step 0 .call, .spawn .new, .step 2 .call, .step 2 .call,
            .step 1 (.report (.response 200)), .step 1 .call] = some (tr, final) ∧
        ∃ x ∈ tr, sampleBreaker.state x.pre.shared = .opened ∧
          sampleBreaker.state x.post.shared = .closed ∧
          ∃ r, x.input = .step 1 .call ∧ x.pre.threads[1]? = some r ∧ r.probe = none :=
    ⟨_, _, rfl, _, List.mem_of_getLast? rfl, rfl, rfl, _, rfl, rfl, rfl⟩
  obtain ⟨i, r', report, hinput', hfound', -, -, hsome⟩ :=
    ((h sampleBreaker (.inMemory .new) 1 tr final rfl (Machine.run_of_exec hexec)).2 x hx).1
      hopened hclosed
  obtain ⟨rfl, -⟩ := PoolInput.step.inj (hinput.symm.trans hinput')
  rw [← Option.some.inj (hfound.symm.trans hfound'), hprobe] at hsome
  cases hsome

end AiPlatform.Proxy
