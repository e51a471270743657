/-
  AiPlatform.Proxy.ServiceProxy

  One request through the proxy: `ServiceProxy.forward` of `proxy/base.py`, with what it tells
  the circuit breaker of its route.

  What the upstream does, what is raised and where the task is cancelled are given.  So is
  what each call of the counter store finds there: other requests use it as well.
-/

import AiPlatform.Proxy.CircuitBreaker

namespace AiPlatform.Proxy

/-- The methods of `str` that the proxy uses.  `int` is `none` where it raises. -/
structure PythonStr where
  upper : String → String
  lower : String → String
  strip : String → String
  isdigit : String → Bool
  int : String → Option Int

/-- What is raised. -/
inductive Raised where
  | connectError
  | remoteProtocolError
  | poolTimeout
  /-- Any other `httpx.TimeoutException`. -/
  | timeoutException
  | httpException (error : HTTPException)
  /-- Any other `Exception`. -/
  | other
  /-- `asyncio.CancelledError` or `GeneratorExit`, which are none. -/
  | cancelled
  deriving DecidableEq

def Raised.isConnection : Raised → Bool
  | connectError | remoteProtocolError | poolTimeout => true
  | _ => false

def Raised.isException : Raised → Bool
  | cancelled => false
  | _ => true

/-! ## Calls of the store -/

/-- The store and the clock at one call of the store.  In an outage a store in Redis raises. -/
structure Moment where
  store : CounterStore
  now : Nat
  outage : Bool

/-- The counter before and after one call of the store. -/
structure StoreCall where
  found : InMemoryCounter
  left : InMemoryCounter

namespace Moment

variable (moment : Moment)

def answers : Bool := !(moment.store.isRedis && moment.outage)

def call (run : CounterStore → CounterStore) : Option StoreCall :=
  if moment.answers then
    some ⟨moment.store.counter moment.now, (run moment.store).counter moment.now⟩
  else none

end Moment

/-- What `gate` comes to. -/
inductive Gated where
  | refused (error : HTTPException)
  | raised
  | passed
  | took
  deriving DecidableEq

namespace CircuitBreaker

variable (breaker : CircuitBreaker)

/-- `gate`: `get`, `_store_float`, the clock, `set_probe(True)`. -/
def gated (asked started : Moment) (time : Nat) (claimed : Moment) : Gated :=
  let claim := match claimed.call (·.setProbe true claimed.now) with
    | some _ => Gated.took
    | none => .raised
  match asked.call id with
  | none => .raised
  | some get =>
      if get.found.fails < breaker.threshold then .passed
      else if get.found.probeInFlight then
        let startedAt := if started.answers then started.store.probeStartedAt started.now else 0
        if breaker.timedOut startedAt time then claim else .refused breaker.recovering
      else claim

/-- `on_failure`.  `_set_store_opened_at` raises nothing. -/
def onFailure (failure stamp : Moment) : List StoreCall × Option Raised :=
  match failure.call fun store => (store.onFailure failure.now).2 with
  | none => ([], some .other)
  | some count =>
      if breaker.threshold ≤ count.left.fails then
        (count :: (stamp.call (·.setOpenedAt stamp.now stamp.now)).toList, none)
      else ([count], none)

/-- `on_response` -/
def onResponse (statusCode : Int) (feedback next : Moment) : List StoreCall × Option Raised :=
  if 200 ≤ statusCode ∧ statusCode < 300 then
    match feedback.call (·.onSuccess) with
    | none => ([], some .other)
    | some success => ([success], none)
  else if 500 ≤ statusCode then breaker.onFailure feedback next
  else
    match feedback.call id with
    | none => ([], some .other)
    | some get =>
        if get.found.probeInFlight then
          match next.call (·.setProbe false next.now) with
          | none => ([get], some .other)
          | some release => ([get, release], none)
        else ([get], none)

end CircuitBreaker

/-! ## Retries -/

structure RetryPolicy where
  maxAttempts : Int
  idempotentMethods : List String
  idempotencyGuaranteed : Bool

namespace RetryPolicy

variable (python : PythonStr) (policy : RetryPolicy) (method : String) (bodyReplayable idempotencyKey : Bool)

def methodCanRetry : Bool :=
  if policy.idempotentMethods.contains (python.upper method) then true
  else bodyReplayable && idempotencyKey && policy.idempotencyGuaranteed

/-- `can_retry_exception`, before a stream has started. -/
def canRetryException (raised : Raised) : Bool :=
  if policy.maxAttempts ≤ 1 then false
  else if !raised.isConnection then false
  else policy.methodCanRetry python method bodyReplayable idempotencyKey

end RetryPolicy

/-! ## The proxy -/

/-- The proxy's configuration, and the breaker of the route. -/
structure ServiceProxy where
  python : PythonStr
  name : String
  bufferThresholdBytes : Int
  retryPolicy : RetryPolicy
  breaker : CircuitBreaker

/-- What the upstream's response says. -/
structure Reply where
  statusCode : Int
  contentType : Option String
  contentLength : Option String

/-- What happens in one turn of the loop. -/
structure Attempt where
  /-- `_get_client`, `build_request` and `client.send`. -/
  sent : Except Raised Reply
  /-- The calls of the store in `on_response`. -/
  feedback : Moment
  next : Moment
  /-- What `resp.aread()` or `resp.aclose()` raises. -/
  buffered : Option Raised
  /-- What `resp.aiter_bytes()` raises, or is thrown in where the stream yields. -/
  streamed : Option Raised
  /-- What the `resp.aclose()` after that raises. -/
  closed : Option Raised
  /-- `budget.try_acquire_retry()` -/
  granted : Bool
  /-- The task is cancelled in `_reset_client`. -/
  reset : Bool
  /-- The task is cancelled in `asyncio.sleep`. -/
  slept : Bool
  /-- The calls of the store in `on_failure`, wherever it is called. -/
  failure : Moment
  stamp : Moment

/-- A call of `forward`. -/
structure Call where
  /-- The calls of the store in `gate`, and its reading of the clock. -/
  asked : Moment
  started : Moment
  time : Nat
  claimed : Moment
  method : String
  bodyGiven : Bool
  /-- What `request.body()` raises. -/
  bodyRead : Option Raised
  /-- `_build_headers` -/
  built : Except Raised (List (String × String))
  errorPrefix : Option String
  attempts : Nat → Attempt

/-- How a call has gone once its response stream has ended.  `ended` is the status code of a
    response that was delivered whole. -/
structure Outcome where
  took : Bool
  calls : List StoreCall
  retries : Nat
  ended : Except Raised Int

/-- The outcome after one more retry, with what the store was called for before it. -/
def Outcome.after (outcome : Outcome) (calls : List StoreCall) : Outcome :=
  { outcome with calls := calls ++ outcome.calls, retries := outcome.retries + 1 }

inductive Response where
  | buffered (statusCode : Int)
  | streaming (statusCode : Int)

namespace ServiceProxy

variable (proxy : ServiceProxy)

/-- Whether a reply takes the path of small responses.  `none` is `int(cl)` raising. -/
def isSmall (reply : Reply) : Option Bool :=
  let isSse := reply.contentType.any fun mt => (proxy.python.lower mt).startsWith "text/event-stream"
  match reply.contentLength with
  | some cl =>
      if !isSse && proxy.python.isdigit cl then
        (proxy.python.int cl).map fun length => decide (length < proxy.bufferThresholdBytes)
      else some false
  | none => some false

/-- `_do` -/
def exchange (attempt : Attempt) : List StoreCall × Except Raised Response :=
  match attempt.sent with
  | .error raised => ([], .error raised)
  | .ok reply =>
      match proxy.breaker.onResponse reply.statusCode attempt.feedback attempt.next with
      | (calls, some raised) => (calls, .error raised)
      | (calls, none) =>
          match proxy.isSmall reply with
          | none => (calls, .error .other)
          | some true =>
              match attempt.buffered with
              | some raised => (calls, .error raised)
              | none => (calls, .ok (.buffered reply.statusCode))
          | some false => (calls, .ok (.streaming reply.statusCode))

/-- `_stream_wrapped` -/
def streamWrapped (attempt : Attempt) : List StoreCall × Option Raised :=
  match attempt.streamed with
  | none => ([], attempt.closed)
  | some raised =>
      if raised.isException then
        let (calls, outage) := proxy.breaker.onFailure attempt.failure attempt.stamp
        (calls, attempt.closed.or (outage.or (some raised)))
      else ([], attempt.closed.or (some raised))

/-- The response, once it is delivered. -/
def deliver (attempt : Attempt) : Response → List StoreCall × Except Raised Int
  | .buffered statusCode => ([], .ok statusCode)
  | .streaming statusCode =>
      match proxy.streamWrapped attempt with
      | (calls, some raised) => (calls, .error raised)
      | (calls, none) => (calls, .ok statusCode)

/-- `breaker.on_failure()` and `raise HTTPException(status_code, detail)`. -/
def failWith (attempt : Attempt) (statusCode : Nat) (detail : String) : List StoreCall × Except Raised Int :=
  match proxy.breaker.onFailure attempt.failure attempt.stamp with
  | (calls, some raised) => (calls, .error raised)
  | (calls, none) => (calls, .error (.httpException ⟨statusCode, detail, []⟩))

variable (call : Call)

/-- `error_prefix or self._cfg.name` -/
def errorPrefix : String :=
  match call.errorPrefix with
  | some text => if text.isEmpty then proxy.name else text
  | none => proxy.name

/-- The body is read before it is sent. -/
def readsBody : Bool := !call.bodyGiven && ["POST", "PUT", "PATCH", "DELETE"].contains (proxy.python.upper call.method)

def idempotencyKey (headers : List (String × String)) : Bool :=
  headers.any fun (key, value) => proxy.python.lower key == "idempotency-key" && proxy.python.strip value != ""

/-- `can_retry` -/
def canRetry (headers : List (String × String)) (attempt : Nat) (raised : Raised) : Bool :=
  decide (attempt < proxy.retryPolicy.maxAttempts) &&
    proxy.retryPolicy.canRetryException proxy.python (proxy.python.upper call.method)
      (call.bodyGiven || proxy.readsBody call) (proxy.idempotencyKey headers) raised &&
    (call.attempts attempt).granted

/-- The loop of `forward`, from an attempt on, and the stream of the response. -/
def loop (headers : List (String × String)) (attempt : Nat) : Outcome :=
  let turn := call.attempts attempt
  match proxy.exchange turn with
  | (calls, .ok response) =>
      let (more, ended) := proxy.deliver turn response
      ⟨false, calls ++ more, 0, ended⟩
  | (calls, .error raised) =>
      if raised.isConnection then
        if turn.reset then ⟨false, calls, 0, .error .cancelled⟩
        else if h : proxy.canRetry call headers attempt raised then
          if turn.slept then ⟨false, calls, 0, .error .cancelled⟩
          else (loop headers (attempt + 1)).after calls
        else
          let (more, ended) := proxy.failWith turn 502 (proxy.errorPrefix call ++ " unavailable")
          ⟨false, calls ++ more, 0, ended⟩
      else
        match raised with
        | .timeoutException =>
            let (more, ended) := proxy.failWith turn 504 (proxy.errorPrefix call ++ " timeout")
            ⟨false, calls ++ more, 0, ended⟩
        | .httpException _ | .cancelled => ⟨false, calls, 0, .error raised⟩
        | _ =>
            let (more, ended) := proxy.failWith turn 502 (proxy.errorPrefix call ++ " error")
            ⟨false, calls ++ more, 0, ended⟩
termination_by (proxy.retryPolicy.maxAttempts - attempt).toNat
decreasing_by
  simp only [canRetry, Bool.and_eq_true, decide_eq_true_eq] at h
  omega

/-- `forward`, after its gate. -/
def admitted : Outcome :=
  match if proxy.readsBody call then call.bodyRead else none with
  | some raised => ⟨false, [], 0, .error raised⟩
  | none =>
      match call.built with
      | .error raised => ⟨false, [], 0, .error raised⟩
      | .ok headers => proxy.loop call headers 1

def forward : Outcome :=
  match proxy.breaker.gated call.asked call.started call.time call.claimed with
  | .refused error => ⟨false, [], 0, .error (.httpException error)⟩
  | .raised => ⟨false, [], 0, .error .other⟩
  | .passed => proxy.admitted call
  | .took => { proxy.admitted call with took := true }

end ServiceProxy

end AiPlatform.Proxy
