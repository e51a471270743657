/-
  AiPlatform.Gateway.AcceptOnce

  Whether a verifier with a replay store accepts a message twice.

  It does exactly where a message passes the checks again after its id has left the
  store.  Two things take an id out: the end of the TTL it was given, which may come
  no later than the end of the window in which the checks pass, and the acceptance
  of as many other ids as the store has room for.
-/

import AiPlatform.Gateway.ReplayStore
import AiPlatform.Gateway.SignedEnvelope
import AiPlatform.Lib.Machine

namespace AiPlatform.Gateway

open AiPlatform.Capability AiPlatform.Checks Transition

/-! ## A verifier and its runs -/

/-- The calls `ι` of a `verify`: the message `μ` that each one brings, when its clock
    is read first and when it is read in the store, and what its checks give. -/
structure Protocol (ι μ ε ρ : Type) where
  message : ι → μ
  started : ι → Int
  stored : ι → Int
  started_le : ∀ call, started call ≤ stored call
  checked : ι → Except ε (String × Int × ρ)
  replayed : ε

/-- The state of a verifier, with all that it has accepted. -/
structure Verifier (μ : Type) where
  now : Int
  store : InMemoryReplayStore
  /-- The ids that were accepted and the ends of their TTLs, in the order of their
      last acceptances. -/
  recorded : List (String × Int)
  /-- The messages, once for every acceptance. -/
  accepted : List μ

def Verifier.start (μ : Type) (now : Int) (capacity : Nat) : Verifier μ :=
  ⟨now, .new capacity, [], []⟩

namespace Protocol

variable {ι μ ε ρ : Type}

/-- `verify` -/
def verify (p : Protocol ι μ ε ρ) (call : ι) (store : InMemoryReplayStore) :
    Except ε ρ × InMemoryReplayStore :=
  store.consume p.replayed (p.stored call) (p.checked call)

/-- What an acceptance adds to the two logs. -/
def record (p : Protocol ι μ ε ρ) (call : ι) (s : Verifier μ) : List (String × Int) × List μ :=
  match p.checked call with
  | .ok (requestId, ttlMs, _) =>
      (ExpiryQueue.put requestId (p.stored call + ttlMs) s.recorded, s.accepted ++ [p.message call])
  | .error _ => (s.recorded, s.accepted)

/-- One call after the other, with a clock that does not go back. -/
def machine (p : Protocol ι μ ε ρ) : Machine (Verifier μ) ι (Except ε ρ) where
  step s call :=
    if s.now ≤ p.started call then
      match p.verify call s.store with
      | (.ok value, store) =>
          let logs := p.record call s
          some (.ok value, ⟨p.stored call, store, logs.1, logs.2⟩)
      | (.error error, store) =>
          some (.error error, { s with now := p.stored call, store := store })
    else none

/-- The checks let a message through that was accepted before, and whose id is no
    longer live: the last TTL it was given is over, or as many other ids have been
    accepted since as the store holds. -/
def Forgotten (p : Protocol ι μ ε ρ) (x : Move (Verifier μ) ι (Except ε ρ)) : Prop :=
  p.message x.input ∈ x.pre.accepted ∧
    ∃ requestId ttlMs value, p.checked x.input = .ok (requestId, ttlMs, value) ∧
      ¬ ExpiryQueue.Live x.pre.store.capacity (p.stored x.input) x.pre.recorded requestId

/-! ## One call -/

variable {p : Protocol ι μ ε ρ} {x : Move (Verifier μ) ι (Except ε ρ)}

/-- What a call can do: it fails with its checks, it finds its id, or it accepts. -/
inductive Outcome (p : Protocol ι μ ε ρ) (x : Move (Verifier μ) ι (Except ε ρ)) : Prop
  | refused (error : ε) (hchecked : p.checked x.input = .error error)
      (hpost : x.post = { x.pre with now := p.stored x.input })
  | found (requestId : String) (ttlMs : Int) (value : ρ)
      (hchecked : p.checked x.input = .ok (requestId, ttlMs, value))
      (hseen : (x.pre.store.seenOrRecord (p.stored x.input) requestId ttlMs).1 = true)
      (hpost : x.post = { x.pre with
        now := p.stored x.input
        store := (x.pre.store.seenOrRecord (p.stored x.input) requestId ttlMs).2 })
  | accepted (requestId : String) (ttlMs : Int) (value : ρ)
      (hchecked : p.checked x.input = .ok (requestId, ttlMs, value))
      (hseen : (x.pre.store.seenOrRecord (p.stored x.input) requestId ttlMs).1 = false)
      (hpost : x.post =
        { now := p.stored x.input
          store := (x.pre.store.seenOrRecord (p.stored x.input) requestId ttlMs).2
          recorded := ExpiryQueue.put requestId (p.stored x.input + ttlMs) x.pre.recorded
          accepted := x.pre.accepted ++ [p.message x.input] })

theorem outcome (hx : p.machine.Makes x) : x.pre.now ≤ p.stored x.input ∧ Outcome p x := by
  unfold Machine.Makes machine verify InMemoryReplayStore.consume record at hx
  dsimp only at hx
  split at hx
  · rename_i hnow
    refine ⟨hnow.trans (p.started_le x.input), ?_⟩
    cases hchecked : p.checked x.input with
    | error error =>
      rw [hchecked] at hx
      obtain ⟨-, hpost⟩ := Prod.mk.inj (Option.some.inj hx)
      exact .refused error hchecked hpost.symm
    | ok checked =>
      obtain ⟨requestId, ttlMs, value⟩ := checked
      rw [hchecked] at hx
      dsimp only at hx
      rcases hseen : x.pre.store.seenOrRecord (p.stored x.input) requestId ttlMs with ⟨_ | _, store⟩
      · rw [hseen] at hx
        obtain ⟨-, hpost⟩ := Prod.mk.inj (Option.some.inj hx)
        exact .accepted requestId ttlMs value hchecked (by rw [hseen]) (by rw [hseen, ← hpost])
      · rw [hseen] at hx
        obtain ⟨-, hpost⟩ := Prod.mk.inj (Option.some.inj hx)
        exact .found requestId ttlMs value hchecked (by rw [hseen]) (by rw [hseen, ← hpost])
  · cases hx

/-- The store holds what is live of all that was recorded. -/
def StoreOk (s : Verifier μ) : Prop := s.store.Holds s.now s.recorded

theorem storeOk_step (hx : p.machine.Makes x) (h : StoreOk x.pre) : StoreOk x.post := by
  obtain ⟨hnow, hstep⟩ := outcome hx
  cases hstep with
  | refused error hchecked hpost =>
    rw [hpost]
    exact h.mono hnow
  | found requestId ttlMs value hchecked hseen hpost =>
    have hkeep := h.seenOrRecord requestId ttlMs hnow
    rw [hseen, if_pos rfl] at hkeep
    rw [hpost]
    exact hkeep
  | accepted requestId ttlMs value hchecked hseen hpost =>
    have hkeep := h.seenOrRecord requestId ttlMs hnow
    rw [hseen, if_neg Bool.false_ne_true] at hkeep
    rw [hpost]
    exact hkeep

/-- A call keeps the acceptances distinct exactly when it does not bring a message
    that was forgotten. -/
theorem nodup_step (hx : p.machine.Makes x) (h : StoreOk x.pre) :
    x.post.accepted.Nodup ↔ x.pre.accepted.Nodup ∧ ¬ Forgotten p x := by
  obtain ⟨hnow, hstep⟩ := outcome hx
  cases hstep with
  | refused error hchecked hpost =>
    have hnot : ¬ Forgotten p x := by
      rintro ⟨-, requestId, ttlMs, value, hok, -⟩
      rw [hchecked] at hok
      cases hok
    rw [hpost]
    exact (and_iff_left hnot).symm
  | found requestId ttlMs value hchecked hseen hpost =>
    have hlive := (InMemoryReplayStore.seenOrRecord_seen ttlMs h hnow).mp hseen
    have hnot : ¬ Forgotten p x := by
      rintro ⟨-, requestId', ttlMs', value', hok, hdead⟩
      obtain ⟨rfl, -⟩ := Prod.mk.inj (Except.ok.inj (hchecked.symm.trans hok))
      exact hdead hlive
    rw [hpost]
    exact (and_iff_left hnot).symm
  | accepted requestId ttlMs value hchecked hseen hpost =>
    have hdead : ¬ ExpiryQueue.Live x.pre.store.capacity (p.stored x.input) x.pre.recorded requestId := by
      intro hlive
      have htrue := (InMemoryReplayStore.seenOrRecord_seen ttlMs h hnow).mpr hlive
      rw [hseen] at htrue
      cases htrue
    have hforgotten : Forgotten p x ↔ p.message x.input ∈ x.pre.accepted :=
      ⟨And.left, fun hmem => ⟨hmem, requestId, ttlMs, value, hchecked, hdead⟩⟩
    rw [hpost, hforgotten, List.nodup_append]
    constructor
    · rintro ⟨hpre, -, hne⟩
      exact ⟨hpre, fun hmem => hne _ hmem _ (List.mem_singleton_self _) rfl⟩
    · rintro ⟨hpre, hnew⟩
      refine ⟨hpre, List.nodup_singleton _, fun message hmem message' hmem' heq => hnew ?_⟩
      rw [← List.mem_singleton.mp hmem', ← heq]
      exact hmem

/-! ## Whole runs -/

variable {now : Int} {capacity : Nat} {tr : List (Move (Verifier μ) ι (Except ε ρ))}
  {final : Verifier μ}

/-- No message is accepted twice exactly when none is forgotten. -/
theorem accepted_nodup_iff (h : Run p.machine (.start μ now capacity) tr final) :
    final.accepted.Nodup ↔ ∀ x ∈ tr, ¬ Forgotten p x := by
  have hiff := Run.iff_forall (P := StoreOk) (Q := fun s => s.accepted.Nodup)
    (fun _ => storeOk_step) (fun _ => nodup_step) h InMemoryReplayStore.holds_new
  exact hiff.trans (and_iff_right List.nodup_nil)

/-! ## Calls inside their windows -/

/-- The id depends on the message alone, and the TTL of a call that goes by the clock
    lasts to the end of the message's window at least. -/
structure Covers (p : Protocol ι μ ε ρ) (clocked : ι → Prop) (idOf : μ → String)
    (windowEnd : μ → Int) : Prop where
  id : ∀ {call requestId ttlMs value}, p.checked call = .ok (requestId, ttlMs, value) →
    requestId = idOf (p.message call)
  lasts : ∀ {call requestId ttlMs value}, clocked call →
    p.checked call = .ok (requestId, ttlMs, value) → windowEnd (p.message call) ≤ p.stored call + ttlMs
  nonneg : ∀ {call requestId ttlMs value}, p.checked call = .ok (requestId, ttlMs, value) → 0 ≤ ttlMs

variable {clocked : ι → Prop} {idOf : μ → String} {windowEnd : μ → Int}

/-- The call goes by the clock, finds room in the store, and reads the clock there
    before the window of the message ends. -/
structure Inside (p : Protocol ι μ ε ρ) (clocked : ι → Prop) (windowEnd : μ → Int)
    (x : Move (Verifier μ) ι (Except ε ρ)) : Prop where
  clocked : clocked x.input
  room : x.pre.accepted.length < x.pre.store.capacity
  early : ∀ checked, p.checked x.input = .ok checked → p.stored x.input < windowEnd (p.message x.input)

/-- What was accepted is recorded to the end of its window. -/
structure Covered (idOf : μ → String) (windowEnd : μ → Int) (s : Verifier μ) : Prop where
  entry : ∀ message ∈ s.accepted, ∃ expires, (idOf message, expires) ∈ s.recorded ∧
    windowEnd message ≤ expires
  length_le : s.recorded.length ≤ s.accepted.length

/-- With room in the store an entry is live until it expires. -/
theorem live_of_mem {s : Verifier μ} {requestId : String} {expires stored : Int}
    (hlength : s.recorded.length ≤ s.accepted.length) (hroom : s.accepted.length < s.store.capacity)
    (hmem : (requestId, expires) ∈ s.recorded) (hlive : stored < expires) :
    ExpiryQueue.Live s.store.capacity stored s.recorded requestId := by
  obtain ⟨front, later, heq⟩ := List.append_of_mem hmem
  refine ⟨expires, later, ⟨front, heq.symm⟩, hlive, ?_⟩
  have hlater := congrArg List.length heq
  rw [List.length_append, List.length_cons] at hlater
  omega

theorem covered_step (hcovers : Covers p clocked idOf windowEnd) (hx : p.machine.Makes x)
    (hin : Inside p clocked windowEnd x) (hok : StoreOk x.pre) (h : Covered idOf windowEnd x.pre) :
    Covered idOf windowEnd x.post := by
  obtain ⟨hnow, hstep⟩ := outcome hx
  cases hstep with
  | refused error hchecked hpost => exact hpost ▸ ⟨h.entry, h.length_le⟩
  | found requestId ttlMs value hchecked hseen hpost => exact hpost ▸ ⟨h.entry, h.length_le⟩
  | accepted requestId ttlMs value hchecked hseen hpost =>
    have hnew : (requestId, p.stored x.input + ttlMs) ∈
        ExpiryQueue.put requestId (p.stored x.input + ttlMs) x.pre.recorded :=
      List.mem_append_right _ (List.mem_singleton_self _)
    have hfilter := List.length_filter_le (fun entry => decide (entry.1 ≠ requestId)) x.pre.recorded
    rw [hpost]
    constructor
    · intro message hmem
      rcases List.mem_append.mp hmem with hold | hmem
      · obtain ⟨expires, hentry, hend⟩ := h.entry message hold
        by_cases heq : idOf message = requestId
        · -- The entry is replaced, so it had expired.
          have hover : expires ≤ p.stored x.input := by
            refine Int.not_lt.mp fun hlive => ?_
            have htrue := (InMemoryReplayStore.seenOrRecord_seen ttlMs hok hnow).mpr
              (live_of_mem h.length_le hin.room (heq ▸ hentry) hlive)
            rw [hseen] at htrue
            cases htrue
          have hpos := hcovers.nonneg hchecked
          refine ⟨p.stored x.input + ttlMs, ?_, by omega⟩
          rw [heq]
          exact hnew
        · exact ⟨expires, List.mem_append_left _ (List.mem_filter.mpr ⟨hentry, decide_eq_true heq⟩),
            hend⟩
      · obtain rfl := List.mem_singleton.mp hmem
        exact ⟨_, hcovers.id hchecked ▸ hnew, hcovers.lasts hin.clocked hchecked⟩
    · have hle := h.length_le
      simp only [ExpiryQueue.put, List.length_append, List.length_singleton]
      omega

/-- A message that is covered and comes inside its window is not forgotten. -/
theorem not_forgotten (hcovers : Covers p clocked idOf windowEnd) (hin : Inside p clocked windowEnd x)
    (h : Covered idOf windowEnd x.pre) : ¬ Forgotten p x := by
  rintro ⟨hmem, requestId, ttlMs, value, hchecked, hdead⟩
  obtain ⟨expires, hentry, hend⟩ := h.entry _ hmem
  have hlive := Int.lt_of_lt_of_le (hin.early _ hchecked) hend
  rw [← hcovers.id hchecked] at hentry
  exact hdead (live_of_mem h.length_le hin.room hentry hlive)

/-- While the store has room and every call reads the clock there inside the window,
    no message is accepted twice. -/
theorem accepted_nodup_of_inside (hcovers : Covers p clocked idOf windowEnd)
    (h : Run p.machine (.start μ now capacity) tr final) (hin : ∀ x ∈ tr, Inside p clocked windowEnd x) :
    final.accepted.Nodup := by
  have hkeep := Run.invariant_when (C := Inside p clocked windowEnd)
    (P := fun s => StoreOk s ∧ Covered idOf windowEnd s)
    (fun _ hx hin hpre => ⟨storeOk_step hx hpre.1, covered_step hcovers hx hin hpre.1 hpre.2⟩) h hin
    ⟨InMemoryReplayStore.holds_new, nofun, Nat.le_refl _⟩
  exact (accepted_nodup_iff h).mpr fun x hmem =>
    not_forgotten hcovers (hin x hmem) (hkeep.1 x hmem).1.2

/-- A message whose checks pass again after its TTL is accepted again. -/
theorem accepted_again (capacity : Nat) {first second : ι} {requestId : String} {ttlMs ttlMs' : Int} {value value' : ρ}
    (hfirst : p.checked first = .ok (requestId, ttlMs, value))
    (hsecond : p.checked second = .ok (requestId, ttlMs', value'))
    (hclock : p.stored first ≤ p.started second) (hover : p.stored first + ttlMs ≤ p.stored second) :
    ∃ tr final, Run p.machine (.start μ (p.started first) (capacity + 1)) tr final ∧
      final.accepted = [p.message first, p.message second] := by
  have hone : p.machine.step (.start μ (p.started first) (capacity + 1)) first =
      some (.ok value, ⟨p.stored first, ⟨[(requestId, p.stored first + ttlMs)], capacity + 1⟩,
        [(requestId, p.stored first + ttlMs)], [p.message first]⟩) := by
    simp [machine, Verifier.start, verify, record, hfirst, InMemoryReplayStore.consume,
      InMemoryReplayStore.seenOrRecord, InMemoryReplayStore.new, ExpiryQueue.dropStale,
      ExpiryQueue.put, ExpiryQueue.dropBeyond]
  have htwo : p.machine.step ⟨p.stored first, ⟨[(requestId, p.stored first + ttlMs)], capacity + 1⟩,
        [(requestId, p.stored first + ttlMs)], [p.message first]⟩ second =
      some (.ok value', ⟨p.stored second, ⟨[(requestId, p.stored second + ttlMs')], capacity + 1⟩,
        [(requestId, p.stored second + ttlMs')], [p.message first, p.message second]⟩) := by
    simp [machine, hclock, verify, record, hsecond, InMemoryReplayStore.consume,
      InMemoryReplayStore.seenOrRecord, ExpiryQueue.dropStale, hover, ExpiryQueue.put,
      ExpiryQueue.dropBeyond]
  exact ⟨_, _, .cons (x := ⟨_, _, _, _⟩) hone (.cons (x := ⟨_, _, _, _⟩) htwo (.nil _)), rfl⟩

/-- A message that comes again while its id is live is refused. -/
theorem refused_again (capacity : Nat) {first second : ι} {requestId : String} {ttlMs ttlMs' : Int} {value value' : ρ}
    (hfirst : p.checked first = .ok (requestId, ttlMs, value))
    (hsecond : p.checked second = .ok (requestId, ttlMs', value'))
    (hclock : p.stored first ≤ p.started second) (hlive : p.stored second < p.stored first + ttlMs) :
    ∃ tr final, Run p.machine (.start μ (p.started first) (capacity + 2)) tr final ∧
      tr.map Move.input = [first, second] ∧ (∀ x ∈ tr, x.pre.accepted.length < x.pre.store.capacity) ∧
      final.accepted = [p.message first] := by
  have hone : p.machine.step (.start μ (p.started first) (capacity + 2)) first =
      some (.ok value, ⟨p.stored first, ⟨[(requestId, p.stored first + ttlMs)], capacity + 2⟩,
        [(requestId, p.stored first + ttlMs)], [p.message first]⟩) := by
    simp [machine, Verifier.start, verify, record, hfirst, InMemoryReplayStore.consume,
      InMemoryReplayStore.seenOrRecord, InMemoryReplayStore.new, ExpiryQueue.dropStale,
      ExpiryQueue.put, ExpiryQueue.dropBeyond]
  have htwo : p.machine.step ⟨p.stored first, ⟨[(requestId, p.stored first + ttlMs)], capacity + 2⟩,
        [(requestId, p.stored first + ttlMs)], [p.message first]⟩ second =
      some (.error p.replayed, ⟨p.stored second, ⟨[(requestId, p.stored first + ttlMs)], capacity + 2⟩,
        [(requestId, p.stored first + ttlMs)], [p.message first]⟩) := by
    simp [machine, hclock, verify, hsecond, InMemoryReplayStore.consume,
      InMemoryReplayStore.seenOrRecord, ExpiryQueue.dropStale, hlive]
  refine ⟨_, _, .cons (x := ⟨_, _, _, _⟩) hone (.cons (x := ⟨_, _, _, _⟩) htwo (.nil _)), rfl, ?_, rfl⟩
  intro x hx
  rcases List.mem_cons.mp hx with rfl | hx
  · exact Nat.succ_pos _
  · obtain rfl := List.mem_singleton.mp hx
    exact Nat.succ_lt_succ (Nat.succ_pos _)

end Protocol

/-! ## The header -/

/-- A call of `GatewaySecret.verify`. -/
structure SecretCall where
  now : Int
  storeNow : Int
  headerValue : Option String
  request : SecretRequest
  inOrder : now ≤ storeNow

variable (lib : Hashlib)

def secretProtocol (config : GatewaySecret) : Protocol SecretCall (Option String) SecretFailure String where
  message := SecretCall.headerValue
  started := SecretCall.now
  stored := SecretCall.storeNow
  started_le := SecretCall.inOrder
  checked := fun call => (config.check lib call.now call.headerValue call.request).map fun rid =>
    (rid, config.replayTtlMs, rid)
  replayed := .invalidGatewaySecret "replay detected"

theorem secretProtocol_verify (config : GatewaySecret) (call : SecretCall)
    (store : InMemoryReplayStore) : (secretProtocol lib config).verify call store =
      config.verify lib call.now call.storeNow call.headerValue call.request store := rfl

theorem secretProtocol_checked {config : GatewaySecret} {call : SecretCall} {rid : String}
    (h : config.check lib call.now call.headerValue call.request = .ok rid) :
    (secretProtocol lib config).checked call = .ok (rid, config.replayTtlMs, rid) :=
  congrArg (Except.map fun rid => (rid, config.replayTtlMs, rid)) h

/-- The request id of a header of the second version. -/
def headerId (header : Option String) : String :=
  (Fields.split ':' (header.getD "")).getD 2 ""

/-- The last instant at which the time of a header is within the skew. -/
def headerWindowEnd (config : GatewaySecret) (header : Option String) : Int :=
  (int ((Fields.split ':' (header.getD "")).getD 3 "")).getD 0 + config.maxSkewMs

/-- With a TTL of twice the skew a header is remembered for as long as it is in time. -/
theorem secretProtocol_covers {config : GatewaySecret} (hv2 : config.version = .v2)
    (httl : 2 * config.maxSkewMs ≤ config.replayTtlMs) :
    (secretProtocol lib config).Covers (fun _ => True) headerId (headerWindowEnd config) := by
  have hparts : ∀ {call : SecretCall} {requestId ttlMs value},
      (secretProtocol lib config).checked call = .ok (requestId, ttlMs, value) →
      ttlMs = config.replayTtlMs ∧ headerId call.headerValue = requestId ∧
        headerWindowEnd config call.headerValue ≤ call.now + 2 * config.maxSkewMs ∧
        0 ≤ config.maxSkewMs := by
    intro call requestId ttlMs value hchecked
    have hmap : (config.check lib call.now call.headerValue call.request).map
        (fun rid => (rid, config.replayTtlMs, rid)) = .ok (requestId, ttlMs, value) := hchecked
    cases hcheck : config.check lib call.now call.headerValue call.request with
    | error failure =>
      rw [hcheck] at hmap
      cases hmap
    | ok rid =>
      rw [hcheck] at hmap
      obtain ⟨rfl, hrest⟩ := Prod.mk.inj (Except.ok.inj hmap)
      obtain ⟨rfl, -⟩ := Prod.mk.inj hrest
      cases hheader : call.headerValue with
      | none =>
        rw [hheader] at hcheck
        cases hcheck
      | some header =>
        rw [hheader] at hcheck
        obtain ⟨-, kid, ts, sig, hsplit, htime, -⟩ := (check_eq_ok hv2).mp hcheck
        obtain ⟨time, hint, hnear⟩ := checkTimestamp_eq_ok.mp htime
        refine ⟨rfl, ?_, ?_, by omega⟩
        · rw [headerId, Option.getD_some, hsplit]
          rfl
        · rw [headerWindowEnd, Option.getD_some, hsplit]
          have hfield : (["v2", kid, rid, ts, bodySha256 lib call.request.body, sig] : List String).getD 3 "" = ts := rfl
          rw [hfield, hint, Option.getD_some]
          omega
  constructor
  · intro call requestId ttlMs value hchecked
    exact (hparts hchecked).2.1.symm
  · intro call requestId ttlMs value _ hchecked
    obtain ⟨rfl, -, hend, -⟩ := hparts hchecked
    have hend : headerWindowEnd config call.headerValue ≤ call.now + 2 * config.maxSkewMs := hend
    have horder := call.inOrder
    show headerWindowEnd config call.headerValue ≤ call.storeNow + config.replayTtlMs
    omega
  · intro call requestId ttlMs value hchecked
    obtain ⟨rfl, -, -, hskew⟩ := hparts hchecked
    omega

/-! ## The envelope -/

/-- A call of `AgentRuntimeSigner.verify`. -/
structure EnvelopeVerification where
  nowMs : Option Int
  readings : Readings
  envelope : PyValue
  call : EnvelopeCall
  inOrder : readings.validated ≤ readings.aged ∧ readings.aged ≤ readings.stored

variable (repr : PyValue → String)

def envelopeProtocol (signer : AgentRuntimeSigner) :
    Protocol EnvelopeVerification PyValue EnvelopeFailure VerifiedAgentRuntime where
  message := EnvelopeVerification.envelope
  started := fun call => call.readings.validated
  stored := fun call => call.readings.stored
  started_le := fun call => call.inOrder.1.trans call.inOrder.2
  checked := fun call => signer.check lib repr call.nowMs call.readings call.envelope call.call
  replayed := .agentRuntimeEnvelopeError "AGENT_RUNTIME_REPLAYED"

theorem envelopeProtocol_verify (signer : AgentRuntimeSigner) (call : EnvelopeVerification)
    (store : InMemoryReplayStore) : (envelopeProtocol lib repr signer).verify call store =
      signer.verify lib repr call.nowMs call.readings call.envelope call.call store := rfl

/-- The replay key of an envelope. -/
def envelopeId (envelope : PyValue) : String :=
  Fields.join ':' (["issuer", "tenant_id", "nonce"].map fun key =>
    str repr (item (withoutSignature (members envelope)) key))

def envelopeExpires (envelope : PyValue) : Int :=
  (asInt (item (withoutSignature (members envelope)) "expires_at_ms")).getD 0

variable {lib repr}

theorem check_returns {signer : AgentRuntimeSigner} {nowMs : Option Int} {readings : Readings}
    {envelope : PyValue} {call : EnvelopeCall} {requestId : String} {ttlMs : Int}
    {value : VerifiedAgentRuntime}
    (h : signer.check lib repr nowMs readings envelope call = .ok (requestId, ttlMs, value)) :
    requestId = envelopeId repr envelope ∧
      ttlMs = max 1 (envelopeExpires envelope - nowMs.getD readings.aged + signer.maxClockSkewMs) := by
  simp only [AgentRuntimeSigner.check, bind_eq_ok, pure_eq_ok] at h
  obtain ⟨mapping, hmapping, -, -, -, -, -, -, -, -, -, -, -, -, -, -, -, -, -, -, -, -, -, -, -, -,
    heq⟩ := h
  obtain ⟨rfl, -⟩ := closedMapping_eq_ok.mp hmapping
  obtain ⟨hid, hrest⟩ := Prod.mk.inj heq
  obtain ⟨httl, -⟩ := Prod.mk.inj hrest
  exact ⟨hid.symm, httl.symm⟩

/-- An envelope is remembered until it has expired, and for the skew more. -/
theorem envelopeProtocol_covers (signer : AgentRuntimeSigner) :
    (envelopeProtocol lib repr signer).Covers
      (fun call => call.nowMs.getD call.readings.aged ≤ call.readings.stored) (envelopeId repr)
      (fun envelope => envelopeExpires envelope + signer.maxClockSkewMs) := by
  constructor
  · intro call requestId ttlMs value hchecked
    exact (check_returns hchecked).1
  · intro call requestId ttlMs value hclocked hchecked
    have httl := (check_returns hchecked).2
    show envelopeExpires call.envelope + signer.maxClockSkewMs ≤ call.readings.stored + ttlMs
    omega
  · intro call requestId ttlMs value hchecked
    have httl := (check_returns hchecked).2
    omega

/-! ## Both messages -/

section

variable {config : GatewaySecret} {signer : AgentRuntimeSigner} {now now' : Int}
  {capacity capacity' : Nat}
  {headers : List (Move (Verifier (Option String)) SecretCall (Except SecretFailure String))}
  {envelopes : List (Move (Verifier PyValue) EnvelopeVerification
    (Except EnvelopeFailure VerifiedAgentRuntime))}
  {final : Verifier (Option String)} {final' : Verifier PyValue}

/-- No header and no envelope is accepted twice exactly when none is forgotten. -/
theorem accepted_once_iff
    (hheaders : Run (secretProtocol lib config).machine (.start _ now capacity) headers final)
    (henvelopes : Run (envelopeProtocol lib repr signer).machine (.start _ now' capacity')
      envelopes final') :
    (final.accepted.Nodup ↔ ∀ x ∈ headers, ¬ (secretProtocol lib config).Forgotten x) ∧
      (final'.accepted.Nodup ↔ ∀ x ∈ envelopes, ¬ (envelopeProtocol lib repr signer).Forgotten x) :=
  ⟨Protocol.accepted_nodup_iff hheaders, Protocol.accepted_nodup_iff henvelopes⟩

end

/-! ## At the edges of the windows -/

def modelsSecretCall (now : Int) : SecretCall where
  now := now
  storeNow := now
  headerValue := some (sampleCall (some "req-1") "" modelsRequest).header
  request := modelsRequest
  inOrder := Int.le_refl now

theorem modelsSecretCall_checked (now : Int) (h : ((now - 1700000000000).natAbs : Int) ≤ 60000) :
    (secretProtocol sampleHashlib sampleSigner).checked (modelsSecretCall now) =
      .ok ("req-1", 120000, "req-1") := by
  have hpeers : Peers sampleSigner sampleSigner := ⟨rfl, rfl, fun _ => rfl, rfl, rfl, rfl⟩
  have hcheck := (sampleCall (some "req-1") "" modelsRequest).passes rfl
    (by decide) hpeers h ⟨rfl, rfl, rfl, rfl, rfl⟩
  exact secretProtocol_checked _ hcheck

/-- A signer that allows no skew. -/
def strictSigner : AgentRuntimeSigner where
  secret := "0123456789abcdef"
  issuer := "ai-gateway"
  maxTtlMs := 60000
  maxClockSkewMs := 0
  secret_length := sampleSigner.secret_length
  issuer_bare := by decide
  ttl_pos := by decide
  skew_nonneg := by decide

def sampleSnapshot : PyValue :=
  .dict
    [("schema_version", .str "agent-runtime/v1"),
     ("tenant_id", .str "tenant-a"),
     ("agent_id", .str "agent-a"),
     ("agent_version_id", .str "version-1"),
     ("publication",
      .dict [("id", .str "publication-1"), ("channel", .str "api"), ("auth_mode", .str "token")]),
     ("model",
      .dict [("id", .str "model-1"), ("provider", .str "provider-a"), ("parameters", .dict [])]),
     ("instructions", .dict [("agent", .str ""), ("prompt_hash", .str "sha256:0")]),
     ("capabilities", .list []),
     ("knowledge", .dict [("datasets", .list []), ("retrieval", .dict [])]),
     ("memory", .dict [("mode", .str "off")]),
     ("channel_policy",
      .dict [("attachments", .bool false), ("high_risk_tools", .bool false),
        ("allowed_origins", .list [])]),
     ("fingerprints",
      .dict [("spec", .str "sha256:1"), ("tool_schema", .str "sha256:2"), ("skills", .str "sha256:3"),
        ("knowledge_revision", .str "sha256:4")])]

def sampleArguments : EnvelopeArguments where
  tenantId := "tenant-a"
  callerPrincipal := "user-a"
  agentId := "agent-a"
  agentVersionId := some "version-1"
  draftRevision := none
  publicationId := some "publication-1"
  channel := "api"
  sessionId := "session-a"
  resolvedSnapshot := sampleSnapshot
  requestBody := .dict [("message", .str "hello")]
  specHash := "sha256:1"
  nonce := some "nonce-1"

theorem sampleSnapshot_valid : ∃ snapshot, validateSnapshot sampleSnapshot = .ok snapshot :=
  exists_ok_of_isOk (by decide +kernel)

theorem sampleEnvelope_valid (body snapshot : List UInt8) :
    strictSigner.validateUnsigned 1700000000000 (strictSigner.unsignedEnvelope sampleArguments
      (digestText body) (digestText snapshot) 1700000000000 1700000030000 "nonce-1") = .ok () := by
  have hfields : AgentRuntimeSigner.validateFields (strictSigner.unsignedEnvelope sampleArguments
      (digestText body) (digestText snapshot) 1700000000000 1700000030000 "nonce-1") =
        .ok (1700000000000, 1700000030000) := rfl
  simp only [AgentRuntimeSigner.validateUnsigned, bind_eq_ok, failIf_eq_ok, discard_eq_ok]
  exact ⟨_, hfields, (), rfl, (), rfl, (), rfl, (), ⟨_, nonEmptyString_digestText _⟩, (),
    ⟨_, nonEmptyString_digestText _⟩, sampleSnapshot_valid⟩

theorem sampleEnvelope_signed :
    ∃ envelope, strictSigner.sign sampleHashlib 1700000000000 "" sampleArguments = .ok envelope := by
  simp only [AgentRuntimeSigner.sign, bind_eq_ok, pure_eq_ok]
  refine ⟨_, (), ?_, (), ?_, (), ?_, (), ?_, (), ?_, (), ?_, (), ?_, _, rfl, _, rfl, (), ?_, (), ?_, _, rfl, rfl⟩
  · exact discard_eq_ok.mpr sampleSnapshot_valid
  iterate 7 exact discard_eq_ok.mpr (exists_ok_of_isOk (by decide +kernel))
  · exact sampleEnvelope_valid _ _

/-- A call at one instant. -/
def sampleVerification (envelope : Dict) (now : Int) : EnvelopeVerification where
  nowMs := none
  readings := ⟨now, now, now⟩
  envelope := .dict envelope
  call := sampleArguments.call
  inOrder := ⟨Int.le_refl now, Int.le_refl now⟩

theorem sampleVerification_checked {envelope : Dict} {now : Int}
    (hsigned : strictSigner.sign sampleHashlib 1700000000000 "" sampleArguments = .ok envelope)
    (hissued : 1700000000000 ≤ now) (hexpires : now ≤ 1700000030000) :
    ∃ value, (envelopeProtocol sampleHashlib (fun _ => "") strictSigner).checked
      (sampleVerification envelope now) =
        .ok ("ai-gateway:tenant-a:nonce-1", max 1 (1700000030000 - now + 0), value) := by
  obtain ⟨bodyHash, snapshotHash, signature, -, -, -, -, rfl⟩ := envelope_of_sign hsigned
  exact ⟨_, check_sign hsigned rfl hissued hexpires⟩

/-- The header comes at either end of its window. -/
theorem header_accepted_twice :
    ∃ tr final, Run (secretProtocol sampleHashlib sampleSigner).machine
      (.start _ 1699999940000 10000) tr final ∧ ¬ final.accepted.Nodup := by
  have hfirst := modelsSecretCall_checked 1699999940000 (by decide)
  have hsecond := modelsSecretCall_checked 1700000060000 (by decide)
  obtain ⟨tr, final, hrun, haccepted⟩ := Protocol.accepted_again 9999 hfirst hsecond (by decide)
    (by decide)
  refine ⟨tr, final, hrun, fun hnodup => ?_⟩
  rw [haccepted] at hnodup
  exact (List.nodup_cons.mp hnodup).1 (List.mem_singleton_self _)

/-- The envelope comes just before it expires, and as it does. -/
theorem envelope_accepted_twice :
    ∃ tr final, Run (envelopeProtocol sampleHashlib (fun _ => "") strictSigner).machine
      (.start _ 1700000029999 10000) tr final ∧ ¬ final.accepted.Nodup := by
  obtain ⟨envelope, hsigned⟩ := sampleEnvelope_signed
  have hissued : (1700000000000 : Int) ≤ 1700000029999 := by decide
  have hexpires : (1700000029999 : Int) ≤ 1700000030000 := by decide
  obtain ⟨value, hfirst⟩ := sampleVerification_checked hsigned hissued hexpires
  obtain ⟨value', hsecond⟩ := sampleVerification_checked hsigned (hissued.trans hexpires)
    (Int.le_refl _)
  obtain ⟨tr, final, hrun, haccepted⟩ := Protocol.accepted_again 9999 hfirst hsecond hexpires
    (Int.le_refl _)
  refine ⟨tr, final, hrun, fun hnodup => ?_⟩
  rw [haccepted] at hnodup
  exact (List.nodup_cons.mp hnodup).1 (List.mem_singleton_self _)

theorem accepted_once_iff_edges :
    ∃ headers final envelopes final', Run (secretProtocol sampleHashlib sampleSigner).machine
        (.start _ 1699999940000 10000) headers final ∧
      Run (envelopeProtocol sampleHashlib (fun _ => "") strictSigner).machine
        (.start _ 1700000029999 10000) envelopes final' ∧
      (∃ x ∈ headers, (secretProtocol sampleHashlib sampleSigner).Forgotten x) ∧
      ∃ x ∈ envelopes, (envelopeProtocol sampleHashlib (fun _ => "") strictSigner).Forgotten x := by
  obtain ⟨headers, final, hheaders, htwice⟩ := header_accepted_twice
  obtain ⟨envelopes, final', henvelopes, htwice'⟩ := envelope_accepted_twice
  obtain ⟨hiff, hiff'⟩ := accepted_once_iff hheaders henvelopes
  rw [hiff] at htwice
  rw [hiff'] at htwice'
  push Not at htwice htwice'
  exact ⟨headers, final, envelopes, final', hheaders, henvelopes, htwice, htwice'⟩

theorem accepted_twice :
    (¬ ∀ (config : GatewaySecret) (now : Int) (capacity : Nat) (tr final),
      2 * config.maxSkewMs ≤ config.replayTtlMs →
      Run (secretProtocol sampleHashlib config).machine (.start _ now capacity) tr final →
      final.accepted.Nodup) ∧
    ¬ ∀ (signer : AgentRuntimeSigner) (now : Int) (capacity : Nat) (tr final),
      Run (envelopeProtocol sampleHashlib (fun _ => "") signer).machine (.start _ now capacity)
        tr final → final.accepted.Nodup := by
  constructor
  · intro h
    obtain ⟨tr, final, hrun, htwice⟩ := header_accepted_twice
    exact htwice (h sampleSigner _ _ tr final (by decide) hrun)
  · intro h
    obtain ⟨tr, final, hrun, htwice⟩ := envelope_accepted_twice
    exact htwice (h strictSigner _ _ tr final hrun)

/-! ## Inside the windows -/

/-- The end of the window of an envelope. -/
def envelopeWindowEnd (signer : AgentRuntimeSigner) (envelope : PyValue) : Int :=
  envelopeExpires envelope + signer.maxClockSkewMs

end AiPlatform.Gateway
