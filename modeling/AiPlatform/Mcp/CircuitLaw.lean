/-
  AiPlatform.Mcp.CircuitLaw

  What the circuit breaker does over whole runs of its calls.

  Its states, its probe and the way back to closed are as they should be in every
  run.  What a stale lease can do is the open question: the token of a probe tells
  a stale one, but a closed lease that was acquired before an opening passes for a
  new one once the circuit is closed again.
-/

import AiPlatform.Lib.Pool
import AiPlatform.Mcp.CircuitBreaker

namespace AiPlatform.Mcp

open Transition MCPCircuitBreaker

/-! ## What the circuit keeps -/

variable {settings : Settings}

structure CircuitOk (settings : Settings) (circuit : Circuit) : Prop where
  probe : circuit.breaker.probeToken.isSome = true ↔ circuit.breaker.state = .halfOpen
  streak : circuit.breaker.state = .closed →
    circuit.breaker.failureStreak < settings.failureThreshold
  bare : ∀ issued ∈ circuit.issued, issued.lease.probeToken = none ↔ issued.lease.state = .closed
  /-- No two leases have one token. -/
  unique : ∀ (i j : Nat) (first second : Issued) (token : Token), circuit.issued[i]? = some first →
    circuit.issued[j]? = some second → first.lease.probeToken = some token →
    second.lease.probeToken = some token → i = j
  bound : ∀ issued ∈ circuit.issued, issued.openings ≤ circuit.openings
  /-- A lease that owns the probe was acquired after the last opening. -/
  current : ∀ issued ∈ circuit.issued, circuit.breaker.ownsProbe issued.lease = true →
    issued.openings = circuit.openings

/-- What a record of the lease at a place can do to the breaker. -/
inductive Effect (settings : Settings) (call : Call) (i : Nat) (lease : MCPCircuitLease)
    (breaker breaker' : MCPCircuitBreaker) : Prop
  | keeps (state : breaker'.state = breaker.state)
      (streak : breaker'.failureStreak = breaker.failureStreak)
      (token : breaker'.probeToken = breaker.probeToken)
  | resets (closed : breaker.state = .closed) (state : breaker'.state = .closed)
      (streak : breaker'.failureStreak = 0) (token : breaker'.probeToken = none)
  | closes (success : call = .recordSuccess i) (owns : breaker.ownsProbe lease = true) (state : breaker'.state = .closed)
      (streak : breaker'.failureStreak = 0) (token : breaker'.probeToken = none)
  | counts (failure : call = .recordFailure i) (bare : lease.probeToken = none) (closed : breaker.state = .closed)
      (state : breaker'.state = .closed) (streak : breaker'.failureStreak = breaker.failureStreak + 1)
      (below : breaker'.failureStreak < settings.failureThreshold)
      (token : breaker'.probeToken = breaker.probeToken)
  | opens (failure : call = .recordFailure i) (bare : lease.probeToken = none) (closed : breaker.state = .closed)
      (state : breaker'.state = .opened) (streak : breaker'.failureStreak = breaker.failureStreak + 1)
      (token : breaker'.probeToken = breaker.probeToken)
  | reopens (owns : breaker.ownsProbe lease = true) (state : breaker'.state = .opened)
      (token : breaker'.probeToken = none)

variable {now i : Nat} {call : Call} {lease : MCPCircuitLease} {breaker : MCPCircuitBreaker}

theorem ownsProbe_eq_true : breaker.ownsProbe lease = true ↔
    ∃ token, lease.probeToken = some token ∧ breaker.probeToken = some token := by
  cases hlease : lease.probeToken with
  | none => simp [ownsProbe, hlease]
  | some token =>
    rw [ownsProbe, hlease, Option.isSome_some, Bool.true_and, beq_iff_eq]
    exact ⟨fun h => ⟨token, rfl, h.symm⟩, fun ⟨_, h, h'⟩ => h.trans h'.symm⟩

theorem recordSuccess_effect :
    Effect settings (.recordSuccess i) i lease breaker (breaker.recordSuccess now lease) := by
  unfold recordSuccess
  split
  · exact .keeps rfl rfl rfl
  · rename_i hhalf
    split
    · exact .keeps rfl rfl rfl
    · rename_i hopened
      split
      · exact .keeps rfl rfl rfl
      · rename_i hforeign
        cases hlease : lease.probeToken with
        | none =>
          have hclosed : breaker.state = .closed := by
            cases hstate : breaker.state with
            | closed => rfl
            | opened => exact absurd ⟨hstate, by rw [hlease]; rfl⟩ hopened
            | halfOpen => exact absurd ⟨hstate, by simp [ownsProbe, hlease]⟩ hhalf
          exact .resets hclosed rfl rfl rfl
        | some token =>
          have hsame : breaker.probeToken = some token := by
            by_contra hne
            exact hforeign ⟨by rw [hlease]; rfl, fun h => hne (h ▸ hlease)⟩
          exact .closes rfl (ownsProbe_eq_true.mpr ⟨token, hlease, hsame⟩) rfl rfl rfl

theorem recordFailure_effect :
    Effect settings (.recordFailure i) i lease breaker
      (breaker.recordFailure settings now lease) := by
  unfold recordFailure
  dsimp only
  cases hlease : lease.probeToken with
  | some token =>
    rw [if_pos Option.isSome_some]
    split
    · exact .keeps rfl rfl rfl
    · rename_i hsame
      have hsame : breaker.probeToken = some token := (not_not.mp hsame).symm
      exact .reopens (ownsProbe_eq_true.mpr ⟨token, hlease, hsame⟩) rfl rfl
  | none =>
    rw [if_neg (by simp)]
    split
    · exact .keeps rfl rfl rfl
    · rename_i hclosed
      have hclosed : breaker.state = .closed := not_not.mp hclosed
      split
      · exact .opens rfl hlease hclosed rfl rfl rfl
      · rename_i hbelow
        exact .counts rfl hlease hclosed hclosed rfl (Nat.not_le.mp hbelow) rfl

theorem recordNeutral_effect :
    Effect settings (.recordNeutral i) i lease breaker (breaker.recordNeutral now lease) := by
  unfold recordNeutral
  dsimp only
  split
  · rename_i howns
    exact .reopens howns.2 rfl rfl
  · exact .keeps rfl rfl rfl

/-- A failed closed lease counts in the closed state. -/
theorem recordFailure_streak (hbare : lease.probeToken = none) (hclosed : breaker.state = .closed) :
    (breaker.recordFailure settings now lease).failureStreak = breaker.failureStreak + 1 := by
  unfold recordFailure
  dsimp only
  rw [hbare, if_neg (by simp), if_neg (by simp [hclosed])]
  split <;> rfl

theorem acquire_cases {token : Token} :
    (breaker.state = .closed ∧ breaker.acquire settings now token =
        (.ok ⟨.closed, none⟩, { breaker with touchedAt := now })) ∨
      (∃ refused, breaker.acquire settings now token =
        (.error refused, { breaker with touchedAt := now })) ∨
      (breaker.state = .opened ∧ breaker.acquire settings now token =
        (.ok ⟨.halfOpen, some token⟩,
          { breaker with touchedAt := now, state := .halfOpen, probeToken := some token })) := by
  cases hstate : breaker.state with
  | closed => exact .inl ⟨rfl, by simp [acquire, hstate]⟩
  | halfOpen => exact .inr (.inl ⟨⟨0, .halfOpen⟩, by simp only [acquire, hstate]⟩)
  | opened =>
    by_cases hwait : now - breaker.openedAt.getD now < settings.cooldown
    · exact .inr (.inl ⟨⟨settings.cooldown - (now - breaker.openedAt.getD now), .opened⟩,
        by simp only [acquire, hstate, if_pos hwait]⟩)
    · exact .inr (.inr ⟨rfl, by simp only [acquire, hstate, if_neg hwait]⟩)

/-! ## One call -/

/-- The call records the lease at this place. -/
inductive Call.Records : Call → Nat → Prop
  | success (i : Nat) : Call.Records (.recordSuccess i) i
  | failure (i : Nat) : Call.Records (.recordFailure i) i
  | neutral (i : Nat) : Call.Records (.recordNeutral i) i

theorem Call.Records.unique {j : Nat} (h : call.Records i) (h' : call.Records j) : i = j := by
  cases h <;> cases h' <;> rfl

variable {x : CircuitMove}

/-- A call does to the breaker what a record of the lease can do, or leaves it with
    the leases as they are, or hands out a lease. -/
inductive CallEffect (settings : Settings) (x : CircuitMove) : Prop
  | records (i : Nat) (issued : Issued) (input : x.input.Records i)
      (found : x.pre.issued[i]? = some issued)
      (effect : Effect settings x.input i issued.lease x.pre.breaker x.post.breaker)
      (after : x.post = x.pre.after x.post.breaker)
  | passes (i : Nat) (issued : Issued) (input : x.input = .validate i)
      (found : x.pre.issued[i]? = some issued)
      (breaker : x.post.breaker = { x.pre.breaker with touchedAt := x.pre.now })
      (after : x.post = x.pre.after x.post.breaker)
      (passed : x.reply = .validated (.ok ()) →
        x.pre.breaker.ownsProbe issued.lease = true ∨
          x.pre.breaker.state = .closed ∧ issued.lease.probeToken = none)
  | waits (input : ∀ i, ¬ x.input.Records i ∧ x.input ≠ .validate i)
      (state : x.post.breaker.state = x.pre.breaker.state)
      (streak : x.post.breaker.failureStreak = x.pre.breaker.failureStreak)
      (token : x.post.breaker.probeToken = x.pre.breaker.probeToken)
      (openings : x.post.openings = x.pre.openings) (issued : x.post.issued = x.pre.issued)
  | admits (input : ∀ i, ¬ x.input.Records i ∧ x.input ≠ .validate i)
      (closed : x.pre.breaker.state = .closed) (state : x.post.breaker.state = .closed)
      (streak : x.post.breaker.failureStreak = x.pre.breaker.failureStreak)
      (token : x.post.breaker.probeToken = x.pre.breaker.probeToken)
      (openings : x.post.openings = x.pre.openings)
      (issued : x.post.issued = x.pre.issued ++ [⟨⟨.closed, none⟩, x.pre.openings⟩])
  | probes (input : ∀ i, ¬ x.input.Records i ∧ x.input ≠ .validate i) (drawn : Token)
      (fresh : ∀ issued ∈ x.pre.issued, issued.lease.probeToken ≠ some drawn)
      (opened : x.pre.breaker.state = .opened) (state : x.post.breaker.state = .halfOpen)
      (token : x.post.breaker.probeToken = some drawn)
      (openings : x.post.openings = x.pre.openings)
      (issued : x.post.issued = x.pre.issued ++ [⟨⟨.halfOpen, some drawn⟩, x.pre.openings⟩])

theorem callEffect (hx : (circuitMachine settings).Makes x) : CallEffect settings x := by
  obtain ⟨pre, input, reply, post⟩ := x
  have hstep : stepOf settings pre input = some (reply, post) := hx
  clear hx
  cases input with
  | acquire token =>
    have hnone : ∀ i, ¬ (Call.acquire token).Records i ∧ Call.acquire token ≠ .validate i :=
      fun i => ⟨nofun, nofun⟩
    simp only [stepOf] at hstep
    split at hstep
    · cases hstep
    · rename_i hfresh
      have hfresh : ∀ issued ∈ pre.issued, issued.lease.probeToken ≠ some token :=
        fun issued hmem heq => hfresh (List.any_eq_true.mpr ⟨issued, hmem, by simp [heq]⟩)
      rcases @acquire_cases settings pre.now pre.breaker token with
        ⟨hclosed, heq⟩ | ⟨refused, heq⟩ | ⟨hopened, heq⟩
      · rw [heq] at hstep
        obtain ⟨rfl, rfl⟩ := Prod.mk.inj (Option.some.inj hstep)
        have hopenings : (pre.after { pre.breaker with touchedAt := pre.now }).openings =
            pre.openings := by simp [Circuit.after]
        exact .admits hnone hclosed hclosed rfl rfl hopenings (by rw [← hopenings]; rfl)
      · rw [heq] at hstep
        obtain ⟨rfl, rfl⟩ := Prod.mk.inj (Option.some.inj hstep)
        exact .waits hnone rfl rfl rfl (by simp [Circuit.after]) rfl
      · rw [heq] at hstep
        obtain ⟨rfl, rfl⟩ := Prod.mk.inj (Option.some.inj hstep)
        exact .probes hnone token hfresh hopened rfl rfl (by simp [Circuit.after])
          (by simp [Circuit.after])
  | validate i =>
    obtain ⟨issued, hfound, heq⟩ := Option.map_eq_some_iff.mp hstep
    obtain ⟨rfl, rfl⟩ := Prod.mk.inj heq
    refine .passes i issued rfl hfound rfl rfl fun hpassed => ?_
    have hstands : pre.breaker.stands issued.lease = true := by
      by_contra hnot
      simp [hnot] at hpassed
    unfold stands at hstands
    cases hstate : pre.breaker.state with
    | closed =>
      rw [hstate] at hstands
      exact .inr ⟨rfl, Option.isNone_iff_eq_none.mp hstands⟩
    | opened =>
      rw [hstate] at hstands
      cases hstands
    | halfOpen =>
      rw [hstate] at hstands
      exact .inl hstands
  | recordSuccess i =>
    obtain ⟨issued, hfound, heq⟩ := Option.map_eq_some_iff.mp hstep
    obtain ⟨rfl, rfl⟩ := Prod.mk.inj heq
    exact .records i issued (.success i) hfound recordSuccess_effect rfl
  | recordFailure i =>
    obtain ⟨issued, hfound, heq⟩ := Option.map_eq_some_iff.mp hstep
    obtain ⟨rfl, rfl⟩ := Prod.mk.inj heq
    exact .records i issued (.failure i) hfound recordFailure_effect rfl
  | recordNeutral i =>
    obtain ⟨issued, hfound, heq⟩ := Option.map_eq_some_iff.mp hstep
    obtain ⟨rfl, rfl⟩ := Prod.mk.inj heq
    exact .records i issued (.neutral i) hfound recordNeutral_effect rfl
  | tick elapsed =>
    obtain ⟨rfl, rfl⟩ := Prod.mk.inj (Option.some.inj hstep)
    exact .waits (fun i => ⟨nofun, nofun⟩) rfl rfl rfl rfl rfl

/-! ## What every call keeps -/

/-- The leases after one more is handed out, whose token is new. -/
theorem unique_push {issued : List Issued} {new : Issued}
    (hunique : ∀ (i j : Nat) (first second : Issued) (token : Token), issued[i]? = some first →
      issued[j]? = some second → first.lease.probeToken = some token →
      second.lease.probeToken = some token → i = j)
    (hfresh : ∀ old ∈ issued, ∀ token, old.lease.probeToken = some token →
      new.lease.probeToken ≠ some token) :
    ∀ (i j : Nat) (first second : Issued) (token : Token), (issued ++ [new])[i]? = some first →
      (issued ++ [new])[j]? = some second → first.lease.probeToken = some token →
      second.lease.probeToken = some token → i = j := by
  intro i j first second token hi hj hfirst hsecond
  rcases Pool.getElem?_push_iff.mp hi with hi | ⟨rfl, rfl⟩
  · rcases Pool.getElem?_push_iff.mp hj with hj | ⟨rfl, rfl⟩
    · exact hunique i j first second token hi hj hfirst hsecond
    · exact absurd hsecond (hfresh first (List.mem_of_getElem? hi) token hfirst)
  · rcases Pool.getElem?_push_iff.mp hj with hj | ⟨rfl, rfl⟩
    · exact absurd hfirst (hfresh second (List.mem_of_getElem? hj) token hsecond)
    · rfl

theorem Circuit.after_openings {circuit : Circuit} {breaker : MCPCircuitBreaker}
    (h : circuit.breaker.state = .opened ∨ breaker.state ≠ .opened) :
    (circuit.after breaker).openings = circuit.openings := by
  unfold Circuit.after
  rcases h with hopened | hnot
  · simp [hopened]
  · simp [hnot]

theorem Circuit.openings_le_after {circuit : Circuit} {breaker : MCPCircuitBreaker} :
    circuit.openings ≤ (circuit.after breaker).openings := by
  unfold Circuit.after
  dsimp only
  split
  · exact Nat.le_succ _
  · exact Nat.le_refl _

/-- A record or a check of a lease, after which the probe is who it was or nobody. -/
theorem CircuitOk.after {circuit : Circuit} {breaker : MCPCircuitBreaker}
    (h : CircuitOk settings circuit)
    (hprobe : breaker.probeToken.isSome = true ↔ breaker.state = .halfOpen)
    (hstreak : breaker.state = .closed → breaker.failureStreak < settings.failureThreshold)
    (htoken : breaker.probeToken = none ∨ breaker.probeToken = circuit.breaker.probeToken) :
    CircuitOk settings (circuit.after breaker) := by
  refine ⟨hprobe, hstreak, h.bare, h.unique,
    fun issued hmem => Nat.le_trans (h.bound issued hmem) Circuit.openings_le_after, ?_⟩
  intro issued hmem howns
  obtain ⟨token, hlease, hlive⟩ := ownsProbe_eq_true.mp howns
  rcases htoken with hnone | hsame
  · rw [show (circuit.after breaker).breaker.probeToken = none from hnone] at hlive
    cases hlive
  · have hlive : breaker.probeToken = some token := hlive
    have hhalf : breaker.state = .halfOpen := hprobe.mp (by rw [hlive]; rfl)
    rw [Circuit.after_openings (.inr (by rw [hhalf]; nofun))]
    exact h.current issued hmem (ownsProbe_eq_true.mpr ⟨token, hlease, hsame ▸ hlive⟩)

theorem CircuitOk.effect {circuit : Circuit} {breaker : MCPCircuitBreaker}
    (h : CircuitOk settings circuit)
    (heffect : Effect settings call i lease circuit.breaker breaker) :
    CircuitOk settings (circuit.after breaker) := by
  cases heffect with
  | keeps state streak token =>
    refine h.after ?_ ?_ (.inr token)
    · rw [token, state]
      exact h.probe
    · rw [state, streak]
      exact h.streak
  | resets closed state streak token =>
    refine h.after (by simp [state, token]) ?_ (.inl token)
    intro _
    rw [streak]
    exact settings.threshold_pos
  | closes success owns state streak token =>
    refine h.after (by simp [state, token]) ?_ (.inl token)
    intro _
    rw [streak]
    exact settings.threshold_pos
  | counts failure bare closed state streak below token =>
    refine h.after ?_ (fun _ => below) (.inr token)
    rw [token, state, h.probe, closed]
  | opens failure bare closed state streak token =>
    refine h.after ?_ (by simp [state]) (.inr token)
    rw [token, h.probe, closed, state]
    simp
  | reopens owns state token => exact h.after (by simp [state, token]) (by simp [state]) (.inl token)

theorem CircuitOk.move (hx : (circuitMachine settings).Makes x) (h : CircuitOk settings x.pre) :
    CircuitOk settings x.post := by
  cases callEffect hx with
  | records i issued input found effect after =>
    rw [after]
    exact h.effect effect
  | passes i issued input found breaker after passed =>
    rw [after]
    have heffect : Effect settings x.input i issued.lease x.pre.breaker x.post.breaker := by
      refine .keeps ?_ ?_ ?_ <;> rw [breaker]
    exact h.effect heffect
  | waits input state streak token openings issued =>
    refine ⟨?_, ?_, ?_, ?_, ?_, ?_⟩
    · rw [token, state]
      exact h.probe
    · rw [state, streak]
      exact h.streak
    · rw [issued]
      exact h.bare
    · rw [issued]
      exact h.unique
    · rw [issued, openings]
      exact h.bound
    · rw [issued, openings]
      intro old hmem howns
      obtain ⟨t, hlease, hlive⟩ := ownsProbe_eq_true.mp howns
      exact h.current old hmem (ownsProbe_eq_true.mpr ⟨t, hlease, token ▸ hlive⟩)
  | admits input closed state streak token openings issued =>
    have hnone : x.pre.breaker.probeToken = none := by
      by_contra hsome
      have hhalf := h.probe.mp (Option.isSome_iff_ne_none.mpr hsome)
      rw [closed] at hhalf
      cases hhalf
    refine ⟨?_, ?_, ?_, ?_, ?_, ?_⟩
    · simp [token, state, hnone]
    · rw [streak]
      exact fun _ => h.streak closed
    · rw [issued]
      exact List.forall_mem_append.mpr ⟨h.bare, by simp⟩
    · rw [issued]
      exact unique_push h.unique fun _ _ _ _ => nofun
    · rw [issued, openings]
      exact List.forall_mem_append.mpr ⟨h.bound, by simp⟩
    · intro old _ howns
      obtain ⟨t, -, hlive⟩ := ownsProbe_eq_true.mp howns
      rw [token, hnone] at hlive
      cases hlive
  | probes input drawn fresh opened state token openings issued =>
    refine ⟨?_, ?_, ?_, ?_, ?_, ?_⟩
    · simp [token, state]
    · simp [state]
    · rw [issued]
      exact List.forall_mem_append.mpr ⟨h.bare, by simp⟩
    · rw [issued]
      refine unique_push h.unique fun old hmem t hold hnew => ?_
      obtain rfl := Option.some.inj hnew
      exact fresh old hmem hold
    · rw [issued, openings]
      exact List.forall_mem_append.mpr ⟨h.bound, by simp⟩
    · rw [issued, openings]
      refine List.forall_mem_append.mpr ⟨fun old hmem howns => ?_, by simp⟩
      obtain ⟨t, hlease, hlive⟩ := ownsProbe_eq_true.mp howns
      rw [token] at hlive
      exact absurd (Option.some.inj hlive ▸ hlease) (fresh old hmem)

theorem circuitOk_new (now : Nat) : CircuitOk settings (.new now) where
  probe := by simp [Circuit.new, MCPCircuitBreaker.new]
  streak _ := settings.threshold_pos
  bare := nofun
  unique i j first second token hi := by simp [Circuit.new] at hi
  bound := nofun
  current := nofun

/-! ## The law -/

/-- What is asked of a call of the breaker. -/
structure Law (settings : Settings) (x : CircuitMove) : Prop where
  /-- A probe is under way exactly in the half-open state, -/
  probe : x.post.breaker.probeToken.isSome = true ↔ x.post.breaker.state = .halfOpen
  /-- and at most one lease is its. -/
  alone : ∀ (i j : Nat) (first second : Issued), x.post.issued[i]? = some first →
    x.post.issued[j]? = some second → x.post.breaker.ownsProbe first.lease = true →
    x.post.breaker.ownsProbe second.lease = true → i = j
  closed : x.post.breaker.state = .closed →
    x.post.breaker.failureStreak < settings.failureThreshold
  closing : x.pre.breaker.state ≠ .closed → x.post.breaker.state = .closed →
    ∃ i issued, x.input = .recordSuccess i ∧ x.pre.issued[i]? = some issued ∧
      x.pre.breaker.ownsProbe issued.lease = true
  /-- A lease from before the last opening neither closes nor opens the circuit, nor
      counts towards opening it. -/
  stale : ∀ i issued, x.input.Records i → x.pre.issued[i]? = some issued →
    issued.openings < x.pre.openings →
    ¬ (x.pre.breaker.state ≠ .closed ∧ x.post.breaker.state = .closed) ∧
      ¬ (x.pre.breaker.state ≠ .opened ∧ x.post.breaker.state = .opened) ∧
      x.post.breaker.failureStreak ≤ x.pre.breaker.failureStreak
  passes : ∀ i issued, x.input = .validate i → x.pre.issued[i]? = some issued →
    x.reply = .validated (.ok ()) →
    x.pre.breaker.ownsProbe issued.lease = true ∨
      issued.lease.state = .closed ∧ issued.openings = x.pre.openings

/-- In the closed state, a closed lease from before the last opening is checked or
    recorded as failed. -/
def UsesStaleLease (x : CircuitMove) : Prop :=
  x.pre.breaker.state = .closed ∧
    ∃ i issued, (x.input = .validate i ∨ x.input = .recordFailure i) ∧
      x.pre.issued[i]? = some issued ∧ issued.lease.state = .closed ∧
      issued.openings < x.pre.openings

/-- Only the success of the live probe closes the circuit. -/
theorem closing_of_makes (hx : (circuitMachine settings).Makes x)
    (hpre : x.pre.breaker.state ≠ .closed) (hpost : x.post.breaker.state = .closed) :
    ∃ i issued, x.input = .recordSuccess i ∧ x.pre.issued[i]? = some issued ∧
      x.pre.breaker.ownsProbe issued.lease = true := by
  cases callEffect hx with
  | records i issued input found effect after =>
    cases effect with
    | keeps state => exact absurd (state ▸ hpost) hpre
    | resets closed => exact absurd closed hpre
    | closes success owns => exact ⟨i, issued, success, found, owns⟩
    | counts _ _ closed => exact absurd closed hpre
    | opens _ _ closed => exact absurd closed hpre
    | reopens _ state => exact absurd (state.symm.trans hpost) nofun
  | passes i issued input found breaker => exact absurd (by rw [breaker] at hpost; exact hpost) hpre
  | waits input state => exact absurd (state ▸ hpost) hpre
  | admits input closed => exact absurd closed hpre
  | probes input drawn fresh opened state => exact absurd (state.symm.trans hpost) nofun

/-- At most one lease owns the probe. -/
theorem CircuitOk.alone {circuit : Circuit} (h : CircuitOk settings circuit) {i j : Nat}
    {first second : Issued} (hi : circuit.issued[i]? = some first)
    (hj : circuit.issued[j]? = some second)
    (hfirst : circuit.breaker.ownsProbe first.lease = true)
    (hsecond : circuit.breaker.ownsProbe second.lease = true) : i = j := by
  obtain ⟨token, hleft, hlive⟩ := ownsProbe_eq_true.mp hfirst
  obtain ⟨token', hright, hlive'⟩ := ownsProbe_eq_true.mp hsecond
  obtain rfl : token = token' := Option.some.inj (hlive.symm.trans hlive')
  exact h.unique i j first second token hi hj hleft hright

/-- Where no stale lease is used, the records of stale leases change nothing. -/
theorem stale_of_not_uses (hx : (circuitMachine settings).Makes x) (h : CircuitOk settings x.pre)
    (hfree : ¬ UsesStaleLease x) {i : Nat} {issued : Issued} (hinput : x.input.Records i)
    (hfound : x.pre.issued[i]? = some issued) (hstale : issued.openings < x.pre.openings) :
    ¬ (x.pre.breaker.state ≠ .closed ∧ x.post.breaker.state = .closed) ∧
      ¬ (x.pre.breaker.state ≠ .opened ∧ x.post.breaker.state = .opened) ∧
      x.post.breaker.failureStreak ≤ x.pre.breaker.failureStreak := by
  have hmem := List.mem_of_getElem? hfound
  have hforeign : x.pre.breaker.ownsProbe issued.lease ≠ true := fun howns =>
    absurd (h.current issued hmem howns) (Nat.ne_of_lt hstale)
  -- A failure that counts is a use of the lease in the closed state.
  have hcounts : issued.lease.probeToken = none → x.pre.breaker.state = .closed →
      x.input ≠ .recordFailure i := fun hbare hclosed hfailure =>
    hfree ⟨hclosed, i, issued, .inr hfailure, hfound, (h.bare issued hmem).mp hbare, hstale⟩
  cases callEffect hx with
  | records j other input found effect after =>
    obtain rfl : i = j := hinput.unique input
    obtain rfl : issued = other := Option.some.inj (hfound.symm.trans found)
    cases effect with
    | keeps state streak =>
      exact ⟨fun h => h.1 (state ▸ h.2), fun h => h.1 (state ▸ h.2), Nat.le_of_eq streak⟩
    | resets closed state streak =>
      exact ⟨fun h => h.1 closed, fun h => absurd (state.symm.trans h.2) nofun,
        streak ▸ Nat.zero_le _⟩
    | closes _ owns => exact absurd owns hforeign
    | counts failure bare closed => exact absurd failure (hcounts bare closed)
    | opens failure bare closed => exact absurd failure (hcounts bare closed)
    | reopens owns => exact absurd owns hforeign
  | passes j other input =>
    rw [input] at hinput
    cases hinput
  | waits input => exact absurd hinput (input i).1
  | admits input => exact absurd hinput (input i).1
  | probes input => exact absurd hinput (input i).1

theorem law_of_not_uses (hx : (circuitMachine settings).Makes x) (h : CircuitOk settings x.pre)
    (hfree : ¬ UsesStaleLease x) : Law settings x where
  probe := (h.move hx).probe
  alone _ _ _ _ hi hj := (h.move hx).alone hi hj
  closed := (h.move hx).streak
  closing := closing_of_makes hx
  stale _ _ hinput hfound := stale_of_not_uses hx h hfree hinput hfound
  passes i issued hinput hfound hreply := by
    have hmem := List.mem_of_getElem? hfound
    have hnone : ¬ x.input.Records i := by rw [hinput]; nofun
    cases callEffect hx with
    | records j other input => rw [hinput] at input; cases input
    | passes j other input found breaker after passed =>
      obtain rfl : i = j := Call.validate.inj (hinput.symm.trans input)
      obtain rfl : issued = other := Option.some.inj (hfound.symm.trans found)
      rcases passed hreply with howns | ⟨hclosed, hbare⟩
      · exact .inl howns
      · have hstate := (h.bare issued hmem).mp hbare
        refine .inr ⟨hstate, Nat.le_antisymm (h.bound issued hmem) (Nat.not_lt.mp fun hstale => ?_)⟩
        exact hfree ⟨hclosed, i, issued, .inl hinput, hfound, hstate, hstale⟩
    | waits input => exact absurd hinput (input i).2
    | admits input => exact absurd hinput (input i).2
    | probes input => exact absurd hinput (input i).2

/-- A stale closed lease is taken for a new one in the closed state. -/
theorem not_law_of_uses (hx : (circuitMachine settings).Makes x) (h : CircuitOk settings x.pre)
    (huses : UsesStaleLease x) : ¬ Law settings x := by
  intro hlaw
  obtain ⟨pre, input, reply, post⟩ := x
  obtain ⟨hclosed, i, issued, hcall, hfound, hstate, hstale⟩ := huses
  have hbare := (h.bare issued (List.mem_of_getElem? hfound)).mpr hstate
  have hstep : stepOf settings pre input = some (reply, post) := hx
  rcases hcall with rfl | rfl
  · simp only [stepOf, hfound, Option.map_some] at hstep
    obtain ⟨rfl, -⟩ := Prod.mk.inj (Option.some.inj hstep)
    have hstands : pre.breaker.stands issued.lease = true := by
      rw [stands, hclosed, hbare]
      rfl
    rcases hlaw.passes i issued rfl hfound (by simp [validate, hstands]) with howns | ⟨-, heq⟩
    · obtain ⟨token, hlease, -⟩ := ownsProbe_eq_true.mp howns
      rw [hbare] at hlease
      cases hlease
    · exact absurd heq (Nat.ne_of_lt hstale)
  · simp only [stepOf, hfound, Option.map_some] at hstep
    obtain ⟨-, rfl⟩ := Prod.mk.inj (Option.some.inj hstep)
    have hle : (pre.breaker.recordFailure settings pre.now issued.lease).failureStreak ≤
        pre.breaker.failureStreak := (hlaw.stale i issued (.failure i) hfound hstale).2.2
    rw [recordFailure_streak hbare hclosed] at hle
    exact absurd hle (Nat.not_succ_le_self _)

/-- In every run, every call obeys the law exactly when no stale lease is used. -/
theorem circuit_law_iff {now : Nat} {tr : List CircuitMove} {final : Circuit}
    (h : Run (circuitMachine settings) (.new now) tr final) :
    (∀ x ∈ tr, Law settings x) ↔ ∀ x ∈ tr, ¬ UsesStaleLease x := by
  have hok : ∀ x ∈ tr, (circuitMachine settings).Makes x ∧ CircuitOk settings x.pre := by
    intro x hx
    obtain ⟨tr₁, hrun, hmakes⟩ := h.of_mem hx
    exact ⟨hmakes, hrun.invariant (fun _ hy hpre => hpre.move hy) (circuitOk_new now)⟩
  constructor
  · intro hlaw x hx huses
    exact not_law_of_uses (hok x hx).1 (hok x hx).2 huses (hlaw x hx)
  · intro hfree x hx
    exact law_of_not_uses (hok x hx).1 (hok x hx).2 (hfree x hx)

/-! ## A queued call -/

def sampleSettings : Settings := .ofArguments 3600000 2 30000

def firstToken : Token := ⟨"7f6c8d1e0b3a4c5d9e8f7a6b5c4d3e2f", by decide⟩

/-- The circuit opens, its probe fails, a later one succeeds. -/
def reopens : List Call :=
  [.acquire firstToken, .acquire firstToken, .recordFailure 0, .recordFailure 1, .tick 30000,
   .acquire firstToken, .validate 2, .recordSuccess 2]

/-- No call names a closed lease from before the last opening. -/
def usesFresh (x : CircuitMove) : Bool :=
  match x.input with
  | .validate i | .recordFailure i => (x.pre.issued[i]?).all fun issued =>
      decide (x.pre.openings ≤ issued.openings)
  | _ => true

theorem not_uses_of_usesFresh (h : usesFresh x = true) : ¬ UsesStaleLease x := by
  rintro ⟨-, i, issued, hinput | hinput, hfound, -, hstale⟩
  · simp only [usesFresh, hinput, hfound, Option.all_some, decide_eq_true_eq] at h
    exact absurd h (Nat.not_le.mpr hstale)
  · simp only [usesFresh, hinput, hfound, Option.all_some, decide_eq_true_eq] at h
    exact absurd h (Nat.not_le.mpr hstale)

theorem circuit_law_iff_reopens :
    ∃ tr circuit, Run (circuitMachine sampleSettings) (.new 0) tr circuit ∧
      circuit.openings = 1 ∧ circuit.breaker.state = .closed ∧ ∀ x ∈ tr, Law sampleSettings x := by
  obtain ⟨tr, circuit, h, -, hcheck⟩ := Machine.exists_run (circuitMachine sampleSettings) (.new 0)
    reopens
    (fun tr circuit => tr.all usesFresh &&
      decide (circuit.openings = 1 ∧ circuit.breaker.state = .closed))
    (by decide +kernel)
  simp only [Bool.and_eq_true, List.all_eq_true, decide_eq_true_eq] at hcheck
  exact ⟨tr, circuit, h, hcheck.2.1, hcheck.2.2,
    (circuit_law_iff h).mpr fun x hx => not_uses_of_usesFresh (hcheck.1 x hx)⟩

/-- A call is queued with the first lease while the circuit opens and closes again. -/
def queued : List Call :=
  [.acquire firstToken, .acquire firstToken, .acquire firstToken, .recordFailure 1,
   .recordFailure 2, .tick 30000, .acquire firstToken, .recordSuccess 3, .validate 0,
   .recordFailure 0]

/-- The failure of a stale lease counts. -/
def countsStale (x : CircuitMove) : Bool :=
  match x.input with
  | .recordFailure i => (x.pre.issued[i]?).any fun issued =>
      decide (issued.openings < x.pre.openings ∧
        x.pre.breaker.failureStreak < x.post.breaker.failureStreak)
  | _ => false

theorem stale_lease_counts :
    ∃ tr circuit, Run (circuitMachine sampleSettings) (.new 0) tr circuit ∧
      ¬ ∀ x ∈ tr, Law sampleSettings x := by
  obtain ⟨tr, circuit, h, -, hcheck⟩ := Machine.exists_run (circuitMachine sampleSettings) (.new 0)
    queued (fun tr _ => tr.any countsStale) (by decide +kernel)
  obtain ⟨x, hx, hcounts⟩ := List.any_eq_true.mp hcheck
  refine ⟨tr, circuit, h, fun hall => ?_⟩
  unfold countsStale at hcounts
  split at hcounts
  · rename_i i hinput
    rw [Option.any_eq_true] at hcounts
    obtain ⟨issued, hfound, hcounts⟩ := hcounts
    obtain ⟨hstale, hmore⟩ := of_decide_eq_true hcounts
    exact absurd ((hall x hx).stale i issued (hinput ▸ .failure i) hfound hstale).2.2
      (Nat.not_le.mpr hmore)
  · cases hcounts

end AiPlatform.Mcp
