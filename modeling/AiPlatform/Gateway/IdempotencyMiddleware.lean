/-
  AiPlatform.Gateway.IdempotencyMiddleware

  `IdempotencyMiddleware` (`comm/idempotency.py`) over either store: requests that
  run at the same time, each at one await of `__call__`, and what they are
  answered.

  A request is *active* while it runs the application and for good once its run
  has ended with a response that is kept.  Two requests of one key are never
  active together as long as none begins over a response that is already stored,
  and everything else follows from that.  Under the dictionary none can; under
  Redis one can, between the two keys.
-/

import AiPlatform.Gateway.IdempotencyStores
import AiPlatform.Gateway.PythonText
import AiPlatform.Lib.Pool

namespace AiPlatform.Gateway

open AiPlatform.Capability Transition

/-! ## The request -/

abbrev Headers := List (List UInt8 × List UInt8)

structure Scope where
  type : String
  method : Option String
  path : Option String
  headers : Headers

/-- `bytes.lower()` -/
def lowerByte (b : UInt8) : UInt8 := if 65 ≤ b ∧ b ≤ 90 then b + 32 else b

def headerValue (headers : Headers) (name : String) : String :=
  match headers.find? fun header => latin1Decode (header.1.map lowerByte) == lower name with
  | some header => latin1Decode header.2
  | none => ""

def Scope.upperMethod (scope : Scope) : String := upper (Python.orElse scope.method "GET")

def storeKey (hexdigest : List UInt8 → String) (scope : Scope) (idemKey : String) : String :=
  hexdigest ("\n".intercalate
    [scope.upperMethod, Python.orElse scope.path "/", headerValue scope.headers "x-tenant-id",
     headerValue scope.headers "x-user-id", idemKey]).toUTF8.data.toList

inductive ReceiveMessage where
  | request (body : List UInt8) (moreBody : Bool)
  | disconnect
  | other

inductive BodyRead where
  | complete (body : List UInt8)
  | tooLarge
  | disconnected
  | waiting

/-- `_read_body` on the messages that have come, after the bytes read so far. -/
def readBody (maxBodyBytes : Nat) (read : List UInt8) : List ReceiveMessage → BodyRead
  | [] => .waiting
  | .disconnect :: _ => .disconnected
  | .other :: rest => readBody maxBodyBytes read rest
  | .request chunk moreBody :: rest =>
      if maxBodyBytes < (read ++ chunk).length then .tooLarge
      else if moreBody then readBody maxBodyBytes (read ++ chunk) rest
      else .complete (read ++ chunk)

structure IdempotencyMiddleware where
  ttlSeconds : Nat
  waitTimeoutMs : Nat
  maxBodyBytes : Nat
  headerName : String

/-- `__init__`, with the times and the limit it is given. -/
def IdempotencyMiddleware.new (ttlSeconds waitTimeoutMs maxBodyBytes : Int)
    (headerName : String) : IdempotencyMiddleware :=
  { ttlSeconds := (max ttlSeconds 1).toNat
    waitTimeoutMs := (max waitTimeoutMs 0).toNat
    maxBodyBytes := (max maxBodyBytes 0).toNat
    headerName := lower headerName }

/-- A request as the store sees it. -/
structure Request where
  key : String
  body : List UInt8
  deriving DecidableEq, Repr

inductive Admission where
  /-- The application serves the request, without the store. -/
  | passThrough
  | receiving
  | gone
  | tooLarge
  | admitted (request : Request)

/-- `__call__` up to its first call of the store. -/
def IdempotencyMiddleware.admit (mw : IdempotencyMiddleware) (hexdigest : List UInt8 → String)
    (scope : Scope) (messages : List ReceiveMessage) : Admission :=
  if scope.type != "http" then .passThrough
  else if scope.upperMethod ∈ ["GET", "HEAD", "OPTIONS"] then .passThrough
  else
    let idemKey := headerValue scope.headers mw.headerName
    if idemKey = "" then .passThrough
    else
      match readBody mw.maxBodyBytes [] messages with
      | .waiting => .receiving
      | .disconnected => .gone
      | .tooLarge => .tooLarge
      | .complete body => .admitted ⟨storeKey hexdigest scope idemKey, body⟩

/-! ## The application -/

/-- What the application sends. -/
inductive SendMessage where
  | start (status : Int) (headers : Headers)
  | body (chunk : List UInt8)
  | other

structure SendState where
  statusCode : Int
  responseHeaders : Headers
  chunks : List (List UInt8)
  isStreaming : Bool

def SendState.init : SendState := ⟨500, [], [], false⟩

def wrappedSend (state : SendState) : SendMessage → SendState
  | .start status headers =>
      { state with
        statusCode := status
        responseHeaders := headers
        isStreaming := "text/event-stream".toList.isPrefixOf
          (lower (headerValue headers "content-type")).toList }
  | .body chunk =>
      if state.isStreaming then state else { state with chunks := state.chunks ++ [chunk] }
  | .other => state

/-- The response of a run of the application that is kept: one that does not
    stream, below 500. -/
def keptResponse (digest : String) (sent : List SendMessage) : Option CachedResponse :=
  let state := sent.foldl wrappedSend .init
  if state.isStreaming then none
  else if 500 ≤ state.statusCode then none
  else some ⟨state.statusCode, state.responseHeaders, state.chunks.flatten, some digest⟩

/-! ## The answers -/

structure Answer where
  status : Int
  headers : Headers
  body : List UInt8
  deriving DecidableEq, Repr

def asciiBytes (text : String) : List UInt8 := text.toUTF8.data.toList

def sendPlain (status : Int) (text : String) : Answer :=
  ⟨status, [(asciiBytes "content-type", asciiBytes "text/plain; charset=utf-8")], asciiBytes text⟩

def sendCached (response : CachedResponse) : Answer :=
  { status := response.statusCode
    headers := response.headers.filter (fun header =>
        header.1.map lowerByte ∉ [asciiBytes "content-length", asciiBytes "transfer-encoding"]) ++
      [(asciiBytes "x-idempotency-replayed", asciiBytes "true")]
    body := response.body }

def stillInProgress : Answer := sendPlain 409 "Idempotency request still in progress"

def differentBody : Answer :=
  sendPlain 409 "Idempotency key was already used with a different request body"

def sendCachedOrConflict (response : CachedResponse) (requestBodyDigest : String) : Answer :=
  if response.requestBodyDigest ≠ some requestBodyDigest then differentBody
  else sendCached response

/-! ## The awaits of a request -/

/-- Where a request stands. -/
inductive Phase where
  /-- At its first `get_cached`, and at `try_begin`. -/
  | lookingUp
  | beginning
  /-- In `wait_for_cached`: at its start, at the head of its loop, at the look in
      the loop and at the one after it. -/
  | waiting
  | polling (deadline : Nat)
  | looking (deadline : Nat)
  | lastLook
  /-- The application runs and has sent this. -/
  | running (sent : List SendMessage)
  /-- In `store_response`, so many of its steps done, and in `abort`. -/
  | storing (response : CachedResponse) (done : Nat)
  | aborting
  /-- Over: with an answer, after its own run of the application and the response
      of that run if it is one to keep, or without either. -/
  | answered (answer : Answer)
  | ran (response : Option CachedResponse)
  | dropped

/-- What moves a request on: the reply of the store or the clock, the application
    that sends, returns or raises, or the cancellation of its task. -/
inductive Drive where
  | proceed
  | send (message : SendMessage)
  | returns
  | raises
  | cancel

variable (S : IdempotencyStore)

/-- What is made of a look at the store. -/
def found (hexdigest : List UInt8 → String) (request : Request) (otherwise : Phase) :
    Except String (Option CachedResponse) → Phase
  | .error _ => .dropped
  | .ok none => otherwise
  | .ok (some response) => .answered (sendCachedOrConflict response (hexdigest request.body))

/-- A step of a request at a call of the store or at the clock. -/
def proceed (mw : IdempotencyMiddleware) (hexdigest : List UInt8 → String) (now : Nat)
    (request : Request) (store : S.State) : Phase → Option (Phase × S.State)
  | .lookingUp =>
      let look := S.getCached now request.key store
      some (found hexdigest request .beginning look.1, look.2)
  | .beginning =>
      let begun := S.tryBegin now request.key mw.ttlSeconds store
      some (if begun.1 then .running [] else .waiting, begun.2)
  | .waiting => some (.polling (now + mw.waitTimeoutMs), store)
  | .polling deadline => some (if now < deadline then .looking deadline else .lastLook, store)
  | .looking deadline =>
      let look := S.getCached now request.key store
      some (found hexdigest request (.polling deadline) look.1, look.2)
  | .lastLook =>
      let look := S.getCached now request.key store
      some (found hexdigest request (.answered stillInProgress) look.1, look.2)
  | .storing response done =>
      let steps := S.storeResponse request.key response mw.ttlSeconds
      (steps[done]?).map fun step =>
        (if done + 1 < steps.length then .storing response (done + 1) else .ran (some response),
          step now store)
  | .aborting => some (.ran none, S.abort request.key store)
  | _ => none

/-- A step of a request that leaves the store alone. -/
def drive (hexdigest : List UInt8 → String) (request : Request) : Drive → Phase → Option Phase
  | .send message, .running sent => some (.running (sent ++ [message]))
  | .returns, .running sent =>
      match keptResponse (hexdigest request.body) sent with
      | some response => some (.storing response 0)
      | none => some .aborting
  | .raises, .running _ => some .aborting
  | .cancel, .running _ => some .aborting
  | .cancel, .storing response _ => some (.ran (some response))
  | .cancel, .aborting => some (.ran none)
  | .cancel, .answered _ => none
  | .cancel, .ran _ => none
  | .cancel, .dropped => none
  | .cancel, _ => some .dropped
  | _, _ => none

structure Shared where
  store : S.State
  now : Nat

abbrev Thread := Request × Phase

def actOf (mw : IdempotencyMiddleware) (hexdigest : List UInt8 → String) (shared : Shared S)
    (thread : Thread) : Drive → Option (Shared S × Thread)
  | .proceed =>
      (proceed S mw hexdigest shared.now thread.1 shared.store thread.2).map fun next =>
        ({ shared with store := next.2 }, (thread.1, next.1))
  | event =>
      (drive hexdigest thread.1 event thread.2).map fun next => (shared, (thread.1, next))

/-- The middleware: requests come in as `admit` lets them, and time passes. -/
def middleware (mw : IdempotencyMiddleware) (hexdigest : List UInt8 → String) :
    Program (Shared S) Thread Drive Nat where
  act := actOf S mw hexdigest
  environment shared ms := some { shared with now := shared.now + ms }
  admits _ _ thread := match thread.2 with | .lookingUp => true | _ => false
  enter shared _ := shared

def idle : Pool (Shared S) Thread := ⟨⟨S.init, 0⟩, []⟩

end AiPlatform.Gateway
