/-
  AiPlatform.Proxy.OneVerdict

  What a forwarded request tells the circuit breaker, and whether it gives back the probe slot.

  Each reply is told as it comes, and so is the failure that ends the call.  The two are not
  told apart: a reply that has counted is followed by whatever comes next.
-/

import AiPlatform.Proxy.ServiceProxy
import Mathlib.Algebra.GroupWithZero.Nat

namespace AiPlatform.Proxy

/-! ## Calls of the store -/

/-- By how much the calls raise the number of failures. -/
def rises (calls : List StoreCall) : Nat := (calls.map fun call => call.left.fails - call.found.fails).sum

/-- One of the calls leaves the slot free. -/
def Frees (calls : List StoreCall) : Prop := ∃ call ∈ calls, call.left.probeInFlight = false

/-- The calls tell of a failure, and free the slot. -/
structure Tells (calls : List StoreCall) (failure freed : Bool) : Prop where
  rises : rises calls = failure.toNat
  frees : Frees calls ↔ freed = true

theorem rises_append {first second : List StoreCall} : rises (first ++ second) = rises first + rises second := by
  simp [rises]

theorem frees_append {first second : List StoreCall} : Frees (first ++ second) ↔ Frees first ∨ Frees second := by
  simp [Frees, or_and_right, exists_or]

theorem tells_nil : Tells [] false false := ⟨rfl, by simp [Frees]⟩

theorem rises_singleton {call : StoreCall} : rises [call] = call.left.fails - call.found.fails := by simp [rises]

theorem frees_singleton {call : StoreCall} : Frees [call] ↔ call.left.probeInFlight = false := by simp [Frees]

theorem setOpenedAt_fails {counter : InMemoryCounter} {time : Nat} : (counter.setOpenedAt time).fails = counter.fails := by
  unfold InMemoryCounter.setOpenedAt
  split <;> rfl

section Breaker

variable {breaker : CircuitBreaker} {feedback next failure stamp : Moment}

theorem call_of_answers {moment : Moment} {run : CounterStore → CounterStore} (h : moment.answers = true) :
    moment.call run = some ⟨moment.store.counter moment.now, (run moment.store).counter moment.now⟩ := if_pos h

theorem call_of_outage {moment : Moment} {run : CounterStore → CounterStore} (h : moment.answers = false) :
    moment.call run = none := by simp [Moment.call, h]

/-- A failure counts once and frees the slot, where the store answers. -/
theorem onFailure_tells (breaker : CircuitBreaker) (failure stamp : Moment) :
    Tells (breaker.onFailure failure stamp).1 failure.answers failure.answers := by
  unfold CircuitBreaker.onFailure
  cases hanswers : failure.answers with
  | false =>
    rw [call_of_outage hanswers]
    exact tells_nil
  | true =>
    rw [call_of_answers hanswers]
    dsimp only
    rw [CounterStore.counter_onFailure]
    have hcount : Frees [⟨failure.store.counter failure.now, (failure.store.counter failure.now).onFailure.2⟩] :=
      frees_singleton.mpr rfl
    have hrise : rises [⟨failure.store.counter failure.now, (failure.store.counter failure.now).onFailure.2⟩] = 1 := by
      rw [rises_singleton]
      exact Nat.add_sub_cancel_left _ 1
    split
    · rw [← List.singleton_append]
      refine ⟨?_, iff_of_true (frees_append.mpr (.inl hcount)) rfl⟩
      rw [rises_append, hrise]
      unfold Moment.call
      split
      · rw [Option.toList_some, rises_singleton, CounterStore.counter_setOpenedAt, setOpenedAt_fails, Nat.sub_self]
        rfl
      · rfl
    · exact ⟨hrise, iff_of_true hcount rfl⟩

theorem onFailure_raised (breaker : CircuitBreaker) (failure stamp : Moment) :
    (breaker.onFailure failure stamp).2 = if failure.answers then none else some .other := by
  unfold CircuitBreaker.onFailure
  cases hanswers : failure.answers with
  | false =>
    rw [call_of_outage hanswers]
    rfl
  | true =>
    rw [call_of_answers hanswers]
    dsimp only
    split <;> rfl

end Breaker

/-! ## What an attempt comes to -/

def isSuccess (statusCode : Int) : Bool := decide (200 ≤ statusCode) && decide (statusCode < 300)

namespace Attempt

variable (attempt : Attempt)

/-- The attempt gets a reply that counts as a failure. -/
def counts : Bool :=
  match attempt.sent with
  | .ok reply => decide (500 ≤ reply.statusCode) && attempt.feedback.answers
  | .error _ => false

/-- The breaker hears of the reply: the store answers. -/
def isHeard (reply : Reply) : Bool :=
  attempt.feedback.answers &&
    (isSuccess reply.statusCode || decide (500 ≤ reply.statusCode) ||
      !(attempt.feedback.store.counter attempt.feedback.now).probeInFlight || attempt.next.answers)

/-- The attempt gets a reply that the breaker hears of. -/
def hears : Bool :=
  match attempt.sent with
  | .ok reply => attempt.isHeard reply
  | .error _ => false

/-- What the reply makes the breaker do. -/
def replyCalls (breaker : CircuitBreaker) : List StoreCall :=
  match attempt.sent with
  | .ok reply => (breaker.onResponse reply.statusCode attempt.feedback attempt.next).1
  | .error _ => []

end Attempt

section Breaker

variable {breaker : CircuitBreaker} {attempt : Attempt} {reply : Reply}

theorem onResponse_tells :
    Tells (breaker.onResponse reply.statusCode attempt.feedback attempt.next).1
      (decide (500 ≤ reply.statusCode) && attempt.feedback.answers) (attempt.isHeard reply) := by
  unfold CircuitBreaker.onResponse Attempt.isHeard
  by_cases hsuccess : 200 ≤ reply.statusCode ∧ reply.statusCode < 300
  · have hclient : ¬ 500 ≤ reply.statusCode := by omega
    rw [if_pos hsuccess]
    cases hanswers : attempt.feedback.answers with
    | false =>
      rw [call_of_outage hanswers, Bool.and_false]
      exact tells_nil
    | true =>
      rw [call_of_answers hanswers]
      dsimp only
      rw [CounterStore.counter_onSuccess]
      refine ⟨?_, iff_of_true (frees_singleton.mpr rfl) (by simp [isSuccess, hsuccess])⟩
      rw [rises_singleton, decide_eq_false hclient]
      exact Nat.zero_sub _
  · rw [if_neg hsuccess]
    by_cases hserver : 500 ≤ reply.statusCode
    · rw [if_pos hserver, decide_eq_true hserver, Bool.true_and, Bool.or_true, Bool.true_or, Bool.true_or, Bool.and_true]
      exact onFailure_tells breaker attempt.feedback attempt.next
    · have hother : isSuccess reply.statusCode = false := by simpa [isSuccess] using hsuccess
      rw [if_neg hserver, decide_eq_false hserver, Bool.false_and, hother, Bool.false_or, Bool.false_or]
      cases hanswers : attempt.feedback.answers with
      | false =>
        rw [call_of_outage hanswers]
        exact tells_nil
      | true =>
        rw [call_of_answers hanswers]
        dsimp only [id]
        cases hprobe : (attempt.feedback.store.counter attempt.feedback.now).probeInFlight with
        | false => exact ⟨by simp [rises], by simp [Frees, hprobe]⟩
        | true =>
          cases hnext : attempt.next.answers with
          | false =>
            rw [call_of_outage hnext]
            exact ⟨by simp [rises], by simp [Frees, hprobe]⟩
          | true =>
            rw [call_of_answers hnext]
            dsimp only
            rw [CounterStore.counter_setProbe]
            exact ⟨by simp [rises, InMemoryCounter.setProbe], by simp [Frees, InMemoryCounter.setProbe]⟩

theorem onResponse_raised :
    (breaker.onResponse reply.statusCode attempt.feedback attempt.next).2 =
      if attempt.isHeard reply then none else some .other := by
  unfold CircuitBreaker.onResponse Attempt.isHeard
  by_cases hsuccess : 200 ≤ reply.statusCode ∧ reply.statusCode < 300
  · have hsucceeds : isSuccess reply.statusCode = true := by simp [isSuccess, hsuccess]
    rw [if_pos hsuccess, hsucceeds]
    cases hanswers : attempt.feedback.answers with
    | false =>
      rw [call_of_outage hanswers]
      rfl
    | true =>
      rw [call_of_answers hanswers]
      simp
  · have hother : isSuccess reply.statusCode = false := by simpa [isSuccess] using hsuccess
    rw [if_neg hsuccess, hother]
    by_cases hserver : 500 ≤ reply.statusCode
    · rw [if_pos hserver, decide_eq_true hserver, onFailure_raised]
      simp
    · rw [if_neg hserver, decide_eq_false hserver]
      cases hanswers : attempt.feedback.answers with
      | false =>
        rw [call_of_outage hanswers]
        rfl
      | true =>
        rw [call_of_answers hanswers]
        dsimp only [id]
        cases hprobe : (attempt.feedback.store.counter attempt.feedback.now).probeInFlight with
        | false => rfl
        | true =>
          cases hnext : attempt.next.answers with
          | false =>
            rw [call_of_outage hnext]
            rfl
          | true =>
            rw [call_of_answers hnext]
            rfl

theorem replyCalls_tells : Tells (attempt.replyCalls breaker) attempt.counts attempt.hears := by
  unfold Attempt.replyCalls Attempt.counts Attempt.hears
  cases attempt.sent with
  | error raised => exact tells_nil
  | ok reply => exact onResponse_tells

end Breaker

/-! ## The way through the loop -/

namespace ServiceProxy

variable (proxy : ServiceProxy) (call : Call) (headers : List (String × String)) (attempt : Nat)

/-- What keeps an attempt from giving a response. -/
def failureOf (turn : Attempt) : Option Raised :=
  match turn.sent with
  | .error raised => some raised
  | .ok reply =>
      if turn.isHeard reply then
        match proxy.isSmall reply with
        | none => some .other
        | some true => turn.buffered
        | some false => none
      else some .other

/-- The attempt gives a response that is streamed. -/
def streams (turn : Attempt) : Bool :=
  match turn.sent with
  | .ok reply => turn.isHeard reply && proxy.isSmall reply == some false
  | .error _ => false

/-- Another attempt follows. -/
def retries : Bool :=
  match proxy.failureOf (call.attempts attempt) with
  | some raised =>
      raised.isConnection && !(call.attempts attempt).reset && proxy.canRetry call headers attempt raised &&
        !(call.attempts attempt).slept
  | none => false

/-- What was raised ends the call as a failure of the upstream. -/
def isFatal (raised : Raised) : Bool :=
  match raised with
  | .httpException _ | .cancelled => false
  | .timeoutException | .other => true
  | _ => !(call.attempts attempt).reset && !proxy.canRetry call headers attempt raised

/-- If no other attempt follows, the call or its stream ends in a failure of the upstream that the breaker is told. -/
def endsInFailure : Bool :=
  (call.attempts attempt).failure.answers &&
    match proxy.failureOf (call.attempts attempt) with
    | some raised => proxy.isFatal call headers attempt raised
    | none => proxy.streams (call.attempts attempt) && (call.attempts attempt).streamed.any Raised.isException

theorem lt_of_retries {proxy : ServiceProxy} {call : Call} {headers : List (String × String)} {attempt : Nat}
    (h : proxy.retries call headers attempt = true) : (attempt : Int) < proxy.retryPolicy.maxAttempts := by
  unfold retries at h
  split at h
  · simp only [canRetry, Bool.and_eq_true, decide_eq_true_eq] at h
    exact h.1.2.1.1
  · cases h

/-- The attempt after which no other follows. -/
def lastAttempt (attempt : Nat) : Nat :=
  if h : proxy.retries call headers attempt then lastAttempt (attempt + 1) else attempt
termination_by (proxy.retryPolicy.maxAttempts - attempt).toNat
decreasing_by
  have hlt := lt_of_retries h
  omega

end ServiceProxy

section Loop

variable {proxy : ServiceProxy} {call : Call} {headers : List (String × String)} {attempt : Nat} {turn : Attempt}

theorem exchange_fst : (proxy.exchange turn).1 = turn.replyCalls proxy.breaker := by
  unfold ServiceProxy.exchange Attempt.replyCalls
  cases turn.sent with
  | error raised => rfl
  | ok reply =>
    dsimp only
    cases (proxy.breaker.onResponse reply.statusCode turn.feedback turn.next) with
    | mk calls raised =>
      cases raised with
      | some raised => rfl
      | none =>
        dsimp only
        split
        · rfl
        · split <;> rfl
        · rfl

/-- A response comes of an attempt that nothing keeps from giving one. -/
inductive GivesResponse (proxy : ServiceProxy) (turn : Attempt) : Response → Prop
  | buffered (reply : Reply) (sent : turn.sent = .ok reply) (heard : turn.isHeard reply = true)
      (small : proxy.isSmall reply = some true) : GivesResponse proxy turn (.buffered reply.statusCode)
  | streaming (reply : Reply) (sent : turn.sent = .ok reply) (heard : turn.isHeard reply = true)
      (large : proxy.isSmall reply = some false) : GivesResponse proxy turn (.streaming reply.statusCode)

theorem exchange_of_failure {raised : Raised} (h : proxy.failureOf turn = some raised) :
    proxy.exchange turn = (turn.replyCalls proxy.breaker, .error raised) := by
  refine Prod.ext exchange_fst ?_
  unfold ServiceProxy.failureOf at h
  unfold ServiceProxy.exchange
  cases hsent : turn.sent with
  | error error =>
    rw [hsent] at h
    cases h
    rfl
  | ok reply =>
    rw [hsent] at h
    dsimp only at h ⊢
    have hraised := @onResponse_raised proxy.breaker turn reply
    rcases hresponse : proxy.breaker.onResponse reply.statusCode turn.feedback turn.next with ⟨calls, outage⟩
    rw [hresponse] at hraised
    dsimp only at hraised ⊢
    cases hheard : turn.isHeard reply with
    | false =>
      rw [hheard] at h hraised
      cases h
      rw [hraised]
      rfl
    | true =>
      rw [hheard, if_pos rfl] at h hraised
      rw [hraised]
      dsimp only
      split at h
      · cases h
        simp [*]
      · simp [*]
      · cases h

theorem exchange_of_response (h : proxy.failureOf turn = none) :
    ∃ response, GivesResponse proxy turn response ∧
      proxy.exchange turn = (turn.replyCalls proxy.breaker, .ok response) := by
  unfold ServiceProxy.failureOf at h
  have hfst := @exchange_fst proxy turn
  cases hsent : turn.sent with
  | error error =>
    rw [hsent] at h
    cases h
  | ok reply =>
    rw [hsent] at h
    dsimp only at h
    cases hheard : turn.isHeard reply with
    | false =>
      rw [hheard] at h
      cases h
    | true =>
      rw [hheard, if_pos rfl] at h
      have hraised := @onResponse_raised proxy.breaker turn reply
      rw [hheard, if_pos rfl] at hraised
      cases hsmall : proxy.isSmall reply with
      | none =>
        rw [hsmall] at h
        cases h
      | some small =>
        cases small with
        | true =>
          rw [hsmall] at h
          refine ⟨.buffered reply.statusCode, .buffered reply hsent hheard hsmall, Prod.ext hfst ?_⟩
          unfold ServiceProxy.exchange
          rw [hsent]
          dsimp only
          rcases hresponse : proxy.breaker.onResponse reply.statusCode turn.feedback turn.next with ⟨calls, outage⟩
          rw [hresponse] at hraised
          dsimp only at h hraised
          rw [hraised, hsmall, h]
        | false =>
          refine ⟨.streaming reply.statusCode, .streaming reply hsent hheard hsmall, Prod.ext hfst ?_⟩
          unfold ServiceProxy.exchange
          rw [hsent]
          dsimp only
          rcases hresponse : proxy.breaker.onResponse reply.statusCode turn.feedback turn.next with ⟨calls, outage⟩
          rw [hresponse] at hraised
          dsimp only at hraised
          rw [hraised, hsmall]

theorem failWith_tells (proxy : ServiceProxy) (turn : Attempt) (statusCode : Nat) (detail : String) :
    Tells (proxy.failWith turn statusCode detail).1 turn.failure.answers turn.failure.answers := by
  have htells := onFailure_tells proxy.breaker turn.failure turn.stamp
  unfold ServiceProxy.failWith
  rcases hfailure : proxy.breaker.onFailure turn.failure turn.stamp with ⟨calls, _ | raised⟩ <;>
    simpa [hfailure] using htells

theorem failWith_raises (proxy : ServiceProxy) (turn : Attempt) (statusCode : Nat) (detail : String) :
    ∃ raised, (proxy.failWith turn statusCode detail).2 = .error raised := by
  unfold ServiceProxy.failWith
  rcases proxy.breaker.onFailure turn.failure turn.stamp with ⟨calls, _ | raised⟩
  · exact ⟨_, rfl⟩
  · exact ⟨raised, rfl⟩

theorem streamWrapped_tells (proxy : ServiceProxy) (turn : Attempt) :
    Tells (proxy.streamWrapped turn).1 (turn.failure.answers && turn.streamed.any Raised.isException)
      (turn.failure.answers && turn.streamed.any Raised.isException) := by
  unfold ServiceProxy.streamWrapped
  cases turn.streamed with
  | none =>
    rw [Option.any_none, Bool.and_false]
    exact tells_nil
  | some raised =>
    dsimp only
    cases hexception : raised.isException with
    | false =>
      rw [Option.any_some, hexception, Bool.and_false]
      exact tells_nil
    | true =>
      rw [Option.any_some, hexception, Bool.and_true]
      exact onFailure_tells proxy.breaker turn.failure turn.stamp

/-- A stream that raises nothing tells nothing. -/
theorem streamWrapped_of_none (h : (proxy.streamWrapped turn).2 = none) : (proxy.streamWrapped turn).1 = [] := by
  unfold ServiceProxy.streamWrapped at h ⊢
  cases hstreamed : turn.streamed with
  | none => rfl
  | some raised =>
    rw [hstreamed] at h
    dsimp only at h
    split at h
    · simp at h
    · simp at h

theorem deliver_tells {response : Response} (h : GivesResponse proxy turn response) :
    Tells (proxy.deliver turn response).1
      (turn.failure.answers && (proxy.streams turn && turn.streamed.any Raised.isException))
      (turn.failure.answers && (proxy.streams turn && turn.streamed.any Raised.isException)) := by
  cases h with
  | buffered reply hsent hheard hsmall =>
    have hstreams : proxy.streams turn = false := by simp [ServiceProxy.streams, hsent, hsmall]
    rw [hstreams, Bool.false_and, Bool.and_false]
    exact tells_nil
  | streaming reply hsent hheard hlarge =>
    have hstreams : proxy.streams turn = true := by simp [ServiceProxy.streams, hsent, hheard, hlarge]
    have htells := streamWrapped_tells proxy turn
    rw [hstreams, Bool.true_and]
    unfold ServiceProxy.deliver
    rcases hstream : proxy.streamWrapped turn with ⟨calls, _ | raised⟩ <;> simpa [hstream] using htells

/-- A response that is delivered whole is told by its reply alone. -/
theorem deliver_ok {response : Response} {statusCode : Int} (h : GivesResponse proxy turn response)
    (hok : (proxy.deliver turn response).2 = .ok statusCode) :
    (proxy.deliver turn response).1 = [] ∧
      ∃ reply, turn.sent = .ok reply ∧ turn.isHeard reply = true ∧ reply.statusCode = statusCode := by
  cases h with
  | buffered reply hsent hheard hsmall => exact ⟨rfl, reply, hsent, hheard, Except.ok.inj hok⟩
  | streaming reply hsent hheard hlarge =>
    have hquiet := @streamWrapped_of_none proxy turn
    unfold ServiceProxy.deliver at hok ⊢
    rcases hstream : proxy.streamWrapped turn with ⟨calls, _ | raised⟩
    · rw [hstream] at hquiet hok
      exact ⟨hquiet rfl, reply, hsent, hheard, Except.ok.inj hok⟩
    · rw [hstream] at hok
      cases hok

theorem loop_of_retries (h : proxy.retries call headers attempt = true) :
    proxy.loop call headers attempt =
      (proxy.loop call headers (attempt + 1)).after ((call.attempts attempt).replyCalls proxy.breaker) := by
  unfold ServiceProxy.retries at h
  cases hfailure : proxy.failureOf (call.attempts attempt) with
  | none =>
    rw [hfailure] at h
    cases h
  | some raised =>
    rw [hfailure] at h
    simp only [Bool.and_eq_true, Bool.not_eq_true'] at h
    obtain ⟨⟨⟨hconnection, hreset⟩, hretry⟩, hslept⟩ := h
    rw [ServiceProxy.loop, exchange_of_failure hfailure]
    simp [hconnection, hreset, hretry, hslept]

/-- The last turn of the loop: what the breaker is told after its reply. -/
structure Stops (proxy : ServiceProxy) (call : Call) (headers : List (String × String)) (attempt : Nat)
    (more : List StoreCall) (ended : Except Raised Int) : Prop where
  loop : proxy.loop call headers attempt =
    ⟨false, (call.attempts attempt).replyCalls proxy.breaker ++ more, 0, ended⟩
  tells : Tells more (proxy.endsInFailure call headers attempt) (proxy.endsInFailure call headers attempt)
  delivered : ∀ statusCode, ended = .ok statusCode → more = [] ∧
    ∃ reply, (call.attempts attempt).sent = .ok reply ∧ (call.attempts attempt).isHeard reply = true ∧
      reply.statusCode = statusCode

/-- A failure that is told ends the loop. -/
theorem stops_failWith {raised : Raised} (hfailure : proxy.failureOf (call.attempts attempt) = some raised)
    (hfatal : proxy.isFatal call headers attempt raised = true) {statusCode : Nat} {detail : String}
    (hloop : proxy.loop call headers attempt =
      ⟨false, (call.attempts attempt).replyCalls proxy.breaker ++ (proxy.failWith (call.attempts attempt) statusCode detail).1,
        0, (proxy.failWith (call.attempts attempt) statusCode detail).2⟩) :
    ∃ more ended, Stops proxy call headers attempt more ended := by
  have hends : proxy.endsInFailure call headers attempt = (call.attempts attempt).failure.answers := by
    rw [ServiceProxy.endsInFailure, hfailure]
    dsimp only
    rw [hfatal, Bool.and_true]
  refine ⟨_, _, hloop, hends ▸ failWith_tells proxy _ _ _, fun status hok => ?_⟩
  obtain ⟨error, hraises⟩ := failWith_raises proxy (call.attempts attempt) statusCode detail
  rw [hraises] at hok
  cases hok

theorem stops_untold {raised ending : Raised} (hfailure : proxy.failureOf (call.attempts attempt) = some raised)
    (hfatal : proxy.isFatal call headers attempt raised = false)
    (hloop : proxy.loop call headers attempt =
      ⟨false, (call.attempts attempt).replyCalls proxy.breaker, 0, .error ending⟩) :
    ∃ more ended, Stops proxy call headers attempt more ended := by
  have hends : proxy.endsInFailure call headers attempt = false := by
    rw [ServiceProxy.endsInFailure, hfailure]
    dsimp only
    rw [hfatal, Bool.and_false]
  refine ⟨[], .error ending, ?_, hends ▸ tells_nil, nofun⟩
  rw [List.append_nil]
  exact hloop

theorem loop_of_stop (h : proxy.retries call headers attempt = false) :
    ∃ more ended, Stops proxy call headers attempt more ended := by
  cases hfailure : proxy.failureOf (call.attempts attempt) with
  | none =>
    obtain ⟨response, hgives, hexchange⟩ := exchange_of_response hfailure
    refine ⟨(proxy.deliver (call.attempts attempt) response).1, (proxy.deliver (call.attempts attempt) response).2, ?_, ?_,
      fun statusCode hok => deliver_ok hgives hok⟩
    · rw [ServiceProxy.loop, hexchange]
    · rw [ServiceProxy.endsInFailure, hfailure]
      exact deliver_tells hgives
  | some raised =>
    have hexchange := exchange_of_failure hfailure
    cases hconnection : raised.isConnection with
    | true =>
      have hfatal : proxy.isFatal call headers attempt raised =
          (!(call.attempts attempt).reset && !proxy.canRetry call headers attempt raised) := by
        cases raised <;> first | rfl | cases hconnection
      cases hreset : (call.attempts attempt).reset with
      | true =>
        refine @stops_untold _ _ _ _ raised .cancelled hfailure (by rw [hfatal, hreset]; rfl) ?_
        rw [ServiceProxy.loop, hexchange]
        simp [hconnection, hreset]
      | false =>
        cases hretry : proxy.canRetry call headers attempt raised with
        | true =>
          have hslept : (call.attempts attempt).slept = true := by
            rw [ServiceProxy.retries, hfailure] at h
            simpa [hconnection, hreset, hretry] using h
          refine @stops_untold _ _ _ _ raised .cancelled hfailure (by rw [hfatal, hretry, Bool.not_true, Bool.and_false]) ?_
          rw [ServiceProxy.loop, hexchange]
          simp [hconnection, hreset, hretry, hslept]
        | false =>
          refine @stops_failWith _ _ _ _ raised hfailure (by rw [hfatal, hreset, hretry]; rfl) 502
            (proxy.errorPrefix call ++ " unavailable") ?_
          rw [ServiceProxy.loop, hexchange]
          simp [hconnection, hreset, hretry]
    | false =>
      cases raised with
      | connectError => cases hconnection
      | remoteProtocolError => cases hconnection
      | poolTimeout => cases hconnection
      | timeoutException =>
        refine @stops_failWith _ _ _ _ _ hfailure rfl 504 (proxy.errorPrefix call ++ " timeout") ?_
        rw [ServiceProxy.loop, hexchange]
        simp [hconnection]
      | httpException error =>
        refine @stops_untold _ _ _ _ _ (.httpException error) hfailure rfl ?_
        rw [ServiceProxy.loop, hexchange]
        simp [hconnection]
      | other =>
        refine @stops_failWith _ _ _ _ _ hfailure rfl 502 (proxy.errorPrefix call ++ " error") ?_
        rw [ServiceProxy.loop, hexchange]
        simp [hconnection]
      | cancelled =>
        refine @stops_untold _ _ _ _ _ .cancelled hfailure rfl ?_
        rw [ServiceProxy.loop, hexchange]
        simp [hconnection]

end Loop

/-! ## The loop and its stream -/

/-- Between one attempt and the last one nothing counts. -/
def Quiet (proxy : ServiceProxy) (call : Call) (headers : List (String × String)) (attempt : Nat) : Prop :=
  (∀ k, attempt ≤ k → k ≤ proxy.lastAttempt call headers attempt → (call.attempts k).counts = false) ∧
    proxy.endsInFailure call headers (proxy.lastAttempt call headers attempt) = false

/-- From an attempt on, no reply that counts comes before another one, or before a failure that ends the call or its
    stream. -/
structure FailsOnce (proxy : ServiceProxy) (call : Call) (headers : List (String × String)) (attempt : Nat) : Prop where
  replies : ∀ m k, attempt ≤ m → m < k → k ≤ proxy.lastAttempt call headers attempt → (call.attempts m).counts = true →
    (call.attempts k).counts = false
  ending : proxy.endsInFailure call headers (proxy.lastAttempt call headers attempt) = true →
    ∀ m, attempt ≤ m → m ≤ proxy.lastAttempt call headers attempt → (call.attempts m).counts = false

/-- The breaker hears of a reply, or of a failure that ends the call or its stream. -/
def IsHeard (proxy : ServiceProxy) (call : Call) (headers : List (String × String)) (attempt : Nat) : Prop :=
  (∃ k, attempt ≤ k ∧ k ≤ proxy.lastAttempt call headers attempt ∧ (call.attempts k).hears = true) ∨
    proxy.endsInFailure call headers (proxy.lastAttempt call headers attempt) = true

section Run

variable {proxy : ServiceProxy} {call : Call} {headers : List (String × String)} {attempt : Nat}

theorem lastAttempt_of_retries (h : proxy.retries call headers attempt = true) :
    proxy.lastAttempt call headers attempt = proxy.lastAttempt call headers (attempt + 1) := by
  rw [ServiceProxy.lastAttempt, dif_pos h]

theorem lastAttempt_of_stop (h : proxy.retries call headers attempt = false) :
    proxy.lastAttempt call headers attempt = attempt := by
  rw [ServiceProxy.lastAttempt, dif_neg (by simp [h])]

theorem le_lastAttempt (proxy : ServiceProxy) (call : Call) (headers : List (String × String)) (attempt : Nat) :
    attempt ≤ proxy.lastAttempt call headers attempt := by
  induction attempt using ServiceProxy.lastAttempt.induct proxy call headers with
  | case1 attempt h ih =>
    rw [lastAttempt_of_retries h]
    exact Nat.le_of_succ_le ih
  | case2 attempt h => exact Nat.le_of_eq (lastAttempt_of_stop (Bool.eq_false_iff.mpr h)).symm

theorem rises_of_retries (h : proxy.retries call headers attempt = true) :
    rises (proxy.loop call headers attempt).calls =
      (call.attempts attempt).counts.toNat + rises (proxy.loop call headers (attempt + 1)).calls := by
  rw [loop_of_retries h, Outcome.after, rises_append, replyCalls_tells.rises]

theorem rises_of_stop (h : proxy.retries call headers attempt = false) :
    rises (proxy.loop call headers attempt).calls =
      (call.attempts attempt).counts.toNat + (proxy.endsInFailure call headers attempt).toNat := by
  obtain ⟨more, ended, hstops⟩ := loop_of_stop h
  rw [hstops.loop, rises_append, replyCalls_tells.rises, hstops.tells.rises]

theorem rises_eq_zero_iff (proxy : ServiceProxy) (call : Call) (headers : List (String × String)) (attempt : Nat) :
    rises (proxy.loop call headers attempt).calls = 0 ↔ Quiet proxy call headers attempt := by
  induction attempt using ServiceProxy.lastAttempt.induct proxy call headers with
  | case1 attempt h ih =>
    rw [rises_of_retries h, Nat.add_eq_zero_iff, ih, Bool.toNat_eq_zero, Quiet, Quiet, lastAttempt_of_retries h]
    have hle := le_lastAttempt proxy call headers (attempt + 1)
    constructor
    · rintro ⟨hfirst, hlater, hending⟩
      refine ⟨fun k hk hlast => ?_, hending⟩
      rcases Nat.eq_or_lt_of_le hk with rfl | hk
      · exact hfirst
      · exact hlater k hk hlast
    · rintro ⟨hall, hending⟩
      exact ⟨hall attempt (Nat.le_refl _) (Nat.le_of_succ_le hle),
        fun k hk hlast => hall k (Nat.le_of_succ_le hk) hlast, hending⟩
  | case2 attempt h =>
    have hstop := Bool.eq_false_iff.mpr h
    rw [rises_of_stop hstop, Nat.add_eq_zero_iff, Bool.toNat_eq_zero, Bool.toNat_eq_zero, Quiet, lastAttempt_of_stop hstop]
    constructor
    · rintro ⟨hcounts, hending⟩
      refine ⟨fun k hk hlast => ?_, hending⟩
      rw [Nat.le_antisymm hlast hk]
      exact hcounts
    · rintro ⟨hall, hending⟩
      exact ⟨hall attempt (Nat.le_refl _) (Nat.le_refl _), hending⟩

/-- The loop raises the count by one at most exactly when no reply that counts comes before anything else that does. -/
theorem rises_le_one_iff (proxy : ServiceProxy) (call : Call) (headers : List (String × String)) (attempt : Nat) :
    rises (proxy.loop call headers attempt).calls ≤ 1 ↔ FailsOnce proxy call headers attempt := by
  induction attempt using ServiceProxy.lastAttempt.induct proxy call headers with
  | case1 attempt h ih =>
    have hle := le_lastAttempt proxy call headers (attempt + 1)
    have hlast := lastAttempt_of_retries h
    rw [rises_of_retries h]
    cases hcounts : (call.attempts attempt).counts with
    | true =>
      have hquiet : true.toNat + rises (proxy.loop call headers (attempt + 1)).calls ≤ 1 ↔
          rises (proxy.loop call headers (attempt + 1)).calls = 0 := by
        rw [Bool.toNat_true]
        omega
      rw [hquiet, rises_eq_zero_iff]
      constructor
      · rintro ⟨hlater, hending⟩
        rw [← hlast] at hlater hending
        refine ⟨fun m k hm hmk hk _ => hlater k (Nat.lt_of_le_of_lt hm hmk) hk, fun hends => ?_⟩
        rw [hending] at hends
        cases hends
      · rintro ⟨hreplies, hending⟩
        rw [hlast] at hreplies hending
        refine ⟨fun k hk hlast => hreplies attempt k (Nat.le_refl _) hk hlast hcounts, ?_⟩
        refine Bool.eq_false_iff.mpr fun hends => ?_
        have hfirst := hending hends attempt (Nat.le_refl _) (Nat.le_of_succ_le hle)
        rw [hcounts] at hfirst
        cases hfirst
    | false =>
      rw [Bool.toNat_false, Nat.zero_add, ih]
      constructor
      · rintro ⟨hreplies, hending⟩
        rw [← hlast] at hreplies hending
        refine ⟨fun m k hm hmk hk hm' => ?_, fun hends m hm hm' => ?_⟩
        · rcases Nat.eq_or_lt_of_le hm with rfl | hm
          · rw [hcounts] at hm'
            cases hm'
          · exact hreplies m k hm hmk hk hm'
        · rcases Nat.eq_or_lt_of_le hm with rfl | hm
          · exact hcounts
          · exact hending hends m hm hm'
      · rintro ⟨hreplies, hending⟩
        rw [hlast] at hreplies hending
        exact ⟨fun m k hm => hreplies m k (Nat.le_of_succ_le hm), fun hends m hm => hending hends m (Nat.le_of_succ_le hm)⟩
  | case2 attempt h =>
    have hstop := Bool.eq_false_iff.mpr h
    rw [rises_of_stop hstop]
    constructor
    · intro hone
      rw [← lastAttempt_of_stop hstop] at hone
      refine ⟨fun m k hm hmk hk _ => ?_, fun hends m hm hm' => ?_⟩
      · rw [lastAttempt_of_stop hstop] at hk
        exact absurd (Nat.lt_of_le_of_lt hm hmk) (Nat.not_lt.mpr hk)
      · rw [hends, Bool.toNat_true] at hone
        rw [lastAttempt_of_stop hstop] at hm' hone
        rw [Nat.le_antisymm hm' hm]
        exact Bool.toNat_eq_zero.mp (by omega)
    · rintro ⟨-, hending⟩
      rw [lastAttempt_of_stop hstop] at hending
      cases hends : proxy.endsInFailure call headers attempt with
      | false => exact Bool.toNat_le _
      | true =>
        rw [hending hends attempt (Nat.le_refl _) (Nat.le_refl _)]
        exact Nat.le_refl _

theorem frees_loop_iff (proxy : ServiceProxy) (call : Call) (headers : List (String × String)) (attempt : Nat) :
    Frees (proxy.loop call headers attempt).calls ↔ IsHeard proxy call headers attempt := by
  induction attempt using ServiceProxy.lastAttempt.induct proxy call headers with
  | case1 attempt h ih =>
    have hle := le_lastAttempt proxy call headers (attempt + 1)
    rw [loop_of_retries h, Outcome.after, frees_append, replyCalls_tells.frees, ih, IsHeard, IsHeard,
      lastAttempt_of_retries h]
    constructor
    · rintro (hfirst | ⟨k, hk, hlast, hheard⟩ | hends)
      · exact .inl ⟨attempt, Nat.le_refl _, Nat.le_of_succ_le hle, hfirst⟩
      · exact .inl ⟨k, Nat.le_of_succ_le hk, hlast, hheard⟩
      · exact .inr hends
    · rintro (⟨k, hk, hlast, hheard⟩ | hends)
      · rcases Nat.eq_or_lt_of_le hk with rfl | hk
        · exact .inl hheard
        · exact .inr (.inl ⟨k, hk, hlast, hheard⟩)
      · exact .inr (.inr hends)
  | case2 attempt h =>
    have hstop := Bool.eq_false_iff.mpr h
    obtain ⟨more, ended, hstops⟩ := loop_of_stop hstop
    rw [hstops.loop, frees_append, replyCalls_tells.frees, hstops.tells.frees, IsHeard, lastAttempt_of_stop hstop]
    constructor
    · rintro (hheard | hends)
      · exact .inl ⟨attempt, Nat.le_refl _, Nat.le_refl _, hheard⟩
      · exact .inr hends
    · rintro (⟨k, hk, hlast, hheard⟩ | hends)
      · rw [Nat.le_antisymm hlast hk] at hheard
        exact .inl hheard
      · exact .inr hends

/-- What a request that succeeds leaves is a new counter. -/
theorem loop_succeeds {statusCode : Int} (hended : (proxy.loop call headers attempt).ended = .ok statusCode)
    (hsuccess : isSuccess statusCode = true) :
    ((proxy.loop call headers attempt).calls.getLast?).map StoreCall.left = some .new := by
  induction attempt using ServiceProxy.lastAttempt.induct proxy call headers with
  | case1 attempt h ih =>
    rw [loop_of_retries h] at hended ⊢
    obtain ⟨last, hlast, hleft⟩ := Option.map_eq_some_iff.mp (ih hended)
    rw [Outcome.after, List.getLast?_append, hlast, Option.some_or, Option.map_some, hleft]
  | case2 attempt h =>
    obtain ⟨more, ended, hstops⟩ := loop_of_stop (Bool.eq_false_iff.mpr h)
    rw [hstops.loop] at hended ⊢
    obtain ⟨rfl, reply, hsent, hheard, rfl⟩ := hstops.delivered statusCode hended
    have hstatus : 200 ≤ reply.statusCode ∧ reply.statusCode < 300 := by simpa [isSuccess] using hsuccess
    have hanswers : (call.attempts attempt).feedback.answers = true := by
      rw [Attempt.isHeard, Bool.and_eq_true] at hheard
      exact hheard.1
    have hcalls : (call.attempts attempt).replyCalls proxy.breaker =
        [⟨(call.attempts attempt).feedback.store.counter (call.attempts attempt).feedback.now, .new⟩] := by
      rw [Attempt.replyCalls, hsent]
      dsimp only
      rw [CircuitBreaker.onResponse, if_pos hstatus, call_of_answers hanswers]
      dsimp only
      rw [CounterStore.counter_onSuccess]
      rfl
    rw [hcalls]
    rfl

end Run

/-! ## The call -/

/-- The counter as the call left it. -/
def Outcome.leaves (outcome : Outcome) : Option InMemoryCounter := outcome.calls.getLast?.map StoreCall.left

/-- The client has got a response whole, with a status code that says success. -/
def Outcome.Succeeded (outcome : Outcome) : Prop := ∃ statusCode, outcome.ended = .ok statusCode ∧ isSuccess statusCode = true

/-- One verdict per forwarded request. -/
structure OneVerdict (proxy : ServiceProxy) (call : Call) : Prop where
  counted : rises (proxy.forward call).calls ≤ 1
  asUnretried : (proxy.forward call).Succeeded → (proxy.forward call).retries ≠ 0 →
    ∀ other, (proxy.forward other).Succeeded → (proxy.forward other).retries = 0 →
      (proxy.forward call).leaves = (proxy.forward other).leaves
  released : (proxy.forward call).took = true → Frees (proxy.forward call).calls

namespace ServiceProxy

variable (proxy : ServiceProxy) (call : Call)

/-- What `gate` comes to for the call. -/
def gate : Gated := proxy.breaker.gated call.asked call.started call.time call.claimed

/-- The call reads its body and builds its headers. -/
def Sets (headers : List (String × String)) : Prop :=
  (proxy.readsBody call = true → call.bodyRead = none) ∧ call.built = .ok headers

end ServiceProxy

section Call

variable {proxy : ServiceProxy} {call : Call} {headers : List (String × String)}

theorem admitted_of_sets (h : proxy.Sets call headers) : proxy.admitted call = proxy.loop call headers 1 := by
  obtain ⟨hbody, hbuilt⟩ := h
  unfold ServiceProxy.admitted
  cases hreads : proxy.readsBody call with
  | false =>
    rw [hbuilt]
    rfl
  | true =>
    rw [hbody hreads, hbuilt]
    rfl

/-- A call that does not get as far as the loop tells nothing. -/
theorem admitted_of_not_sets (h : ∀ headers, ¬ proxy.Sets call headers) :
    ∃ raised, proxy.admitted call = ⟨false, [], 0, .error raised⟩ := by
  unfold ServiceProxy.admitted
  split
  · case h_1 raised _ => exact ⟨raised, rfl⟩
  · case h_2 hbody =>
    cases hbuilt : call.built with
    | error raised => exact ⟨raised, rfl⟩
    | ok headers =>
      refine absurd ⟨fun hreads => ?_, hbuilt⟩ (h headers)
      rw [if_pos hreads] at hbody
      exact hbody

theorem forward_cases (proxy : ServiceProxy) (call : Call) :
    (∃ raised, proxy.forward call = ⟨false, [], 0, .error raised⟩) ∨
      (proxy.gate call = .passed ∧ proxy.forward call = proxy.admitted call) ∨
      (proxy.gate call = .took ∧ proxy.forward call = { proxy.admitted call with took := true }) := by
  unfold ServiceProxy.forward ServiceProxy.gate
  cases proxy.breaker.gated call.asked call.started call.time call.claimed with
  | refused error => exact .inl ⟨_, rfl⟩
  | raised => exact .inl ⟨_, rfl⟩
  | passed => exact .inr (.inl ⟨rfl, rfl⟩)
  | took => exact .inr (.inr ⟨rfl, rfl⟩)

theorem took_loop (proxy : ServiceProxy) (call : Call) (headers : List (String × String)) (attempt : Nat) :
    (proxy.loop call headers attempt).took = false := by
  induction attempt using ServiceProxy.lastAttempt.induct proxy call headers with
  | case1 attempt h ih =>
    rw [loop_of_retries h]
    exact ih
  | case2 attempt h =>
    obtain ⟨more, ended, hstops⟩ := loop_of_stop (Bool.eq_false_iff.mpr h)
    rw [hstops.loop]

theorem took_admitted (proxy : ServiceProxy) (call : Call) : (proxy.admitted call).took = false := by
  by_cases hsets : ∃ headers, proxy.Sets call headers
  · obtain ⟨headers, hsets⟩ := hsets
    rw [admitted_of_sets hsets]
    exact took_loop proxy call headers 1
  · obtain ⟨raised, hraised⟩ := admitted_of_not_sets (not_exists.mp hsets)
    rw [hraised]

theorem sets_unique {other : List (String × String)} (h : proxy.Sets call headers) (h' : proxy.Sets call other) :
    other = headers := Except.ok.inj (h'.2.symm.trans h.2)

theorem rises_admitted_iff (proxy : ServiceProxy) (call : Call) :
    rises (proxy.admitted call).calls ≤ 1 ↔ ∀ headers, proxy.Sets call headers → FailsOnce proxy call headers 1 := by
  by_cases hsets : ∃ headers, proxy.Sets call headers
  · obtain ⟨headers, hsets⟩ := hsets
    rw [admitted_of_sets hsets, rises_le_one_iff]
    refine ⟨fun honce other hother => ?_, fun hall => hall headers hsets⟩
    rw [sets_unique hsets hother]
    exact honce
  · obtain ⟨raised, hraised⟩ := admitted_of_not_sets (not_exists.mp hsets)
    rw [hraised]
    exact iff_of_true (Nat.zero_le 1) fun headers hfound => absurd ⟨headers, hfound⟩ hsets

theorem frees_admitted_iff (proxy : ServiceProxy) (call : Call) :
    Frees (proxy.admitted call).calls ↔ ∃ headers, proxy.Sets call headers ∧ IsHeard proxy call headers 1 := by
  by_cases hsets : ∃ headers, proxy.Sets call headers
  · obtain ⟨headers, hsets⟩ := hsets
    rw [admitted_of_sets hsets, frees_loop_iff]
    refine ⟨fun hheard => ⟨headers, hsets, hheard⟩, fun ⟨other, hother, hheard⟩ => ?_⟩
    rw [sets_unique hsets hother] at hheard
    exact hheard
  · obtain ⟨raised, hraised⟩ := admitted_of_not_sets (not_exists.mp hsets)
    rw [hraised]
    exact iff_of_false (by simp [Frees]) fun ⟨headers, hfound, _⟩ => hsets ⟨headers, hfound⟩

theorem admitted_succeeds (h : (proxy.admitted call).Succeeded) : (proxy.admitted call).leaves = some .new := by
  obtain ⟨statusCode, hended, hsuccess⟩ := h
  by_cases hsets : ∃ headers, proxy.Sets call headers
  · obtain ⟨headers, hsets⟩ := hsets
    rw [admitted_of_sets hsets] at hended ⊢
    exact loop_succeeds hended hsuccess
  · obtain ⟨raised, hraised⟩ := admitted_of_not_sets (not_exists.mp hsets)
    rw [hraised] at hended
    cases hended

/-- A success leaves a new counter, however many attempts it took. -/
theorem forward_succeeds (h : (proxy.forward call).Succeeded) : (proxy.forward call).leaves = some .new := by
  rcases forward_cases proxy call with ⟨raised, hforward⟩ | ⟨-, hforward⟩ | ⟨-, hforward⟩
  · obtain ⟨statusCode, hended, -⟩ := h
    rw [hforward] at hended
    cases hended
  · rw [hforward] at h ⊢
    exact admitted_succeeds h
  · rw [hforward] at h ⊢
    exact admitted_succeeds h

end Call

/-- A request that gets a reply of 503 whose body breaks off. -/
def brokenReply : Call :=
  let moment : Moment := ⟨.inMemory .new, 1, false⟩
  let turn : Attempt :=
    { sent := .ok ⟨503, none, some "100"⟩, feedback := moment, next := moment, buffered := some .other, streamed := none,
      closed := none, granted := false, reset := false, slept := false,
      failure := ⟨.inMemory ⟨1, false, 0, 0⟩, 1, false⟩, stamp := moment }
  { asked := moment, started := moment, time := 1, claimed := moment, method := "GET", bodyGiven := false,
    bodyRead := none, built := .ok [], errorPrefix := none, attempts := fun _ => turn }

/-- A proxy with the defaults of its configuration. -/
def defaultProxy : ServiceProxy where
  python := ⟨id, id, id, fun _ => true, fun _ => some 100⟩
  name := "knowledge-service"
  bufferThresholdBytes := 262144
  retryPolicy := ⟨2, ["GET", "HEAD", "OPTIONS"], false⟩
  breaker := ⟨"knowledge-service:/health", 3, 30⟩

end AiPlatform.Proxy
