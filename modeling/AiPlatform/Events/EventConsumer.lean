/-
  AiPlatform.Events.EventConsumer

  The workers of an event stream: `EventConsumer` (`events/consumer.py`) and the
  dedupe table in front of its handler (`events/idempotency.py`), over the records
  they share in Redis.

  A worker is at one await of `start` at a time.  It may crash at any of them, and
  a worker of its name may be started again.  The log is no part of the program:
  it keeps, in order, what the claims under it speak of.
-/

import AiPlatform.Lib.Pool
import AiPlatform.Lib.RedisStream
import AiPlatform.Lib.RedisStrings

namespace AiPlatform.Events

open Transition

/-- `str(event_id)`: the text of a UUID, which has no colon. -/
abbrev EventId := { text : String // ':' ∉ text.toList }

/-- What `parse_envelope` makes of a payload: an envelope, an
    `EventDeserializationError`, or the error of the schema of its event type. -/
inductive Parsed where
  | envelope (event : EventId)
  | malformed (error : String)
  | invalid

/-- What the workers of a stream have in common. -/
structure Bus where
  stream : String
  parseEnvelope : List UInt8 → Parsed
  /-- The dedupe table's. -/
  idemPrefix : String
  ttlSeconds : Nat
  ttl_pos : 0 < ttlSeconds

/-! ## What the workers share -/

structure DlqEntry where
  originalId : Nat
  error : String
  attempts : Nat
  stream : String
  group : String
  consumer : String
  deriving DecidableEq, Repr

inductive Happening where
  | claimed (group consumer : String) (event : EventId)
  /-- The handler has returned; `claimedAt` is when its event was claimed. -/
  | completed (group consumer : String) (event : EventId) (claimedAt : Nat)
  /-- A worker crashed between its claim and the end of the handler's run. -/
  | abandoned (consumer : String) (event : EventId)
  | parked (group : String) (id : Nat)
  | acked (group : String) (id : Nat)
  deriving DecidableEq

structure Shared where
  now : Nat
  /-- The payload field of each entry. -/
  stream : Redis.Stream (Option (List UInt8))
  claims : Redis.Strings Unit
  /-- `events:deliveries:{stream}:{group}`, by group and message id. -/
  deliveries : String → Nat → Nat
  dlq : List DlqEntry
  log : List Happening

def Shared.init : Shared := ⟨0, .empty, .empty, fun _ _ => 0, [], []⟩

namespace IdempotencyStore

def key (bus : Bus) (consumer : String) (event : EventId) : String :=
  bus.idemPrefix ++ ":" ++ consumer ++ ":" ++ event.1

def ttl (bus : Bus) : Nat := 1000 * bus.ttlSeconds

def claim (bus : Bus) (consumer : String) (event : EventId) (shared : Shared) :
    Bool × Redis.Strings Unit :=
  shared.claims.setNx shared.now (key bus consumer event) () (shared.now + ttl bus)

def release (bus : Bus) (consumer : String) (event : EventId) (shared : Shared) :
    Redis.Strings Unit :=
  shared.claims.del (key bus consumer event)

end IdempotencyStore

/-! ## A worker -/

def MAX_DELIVERIES : Nat := 3

def RECLAIM_IDLE_MS : Nat := 60_000

def READ_COUNT : Nat := 32

def RECLAIM_MAX_PASSES : Nat := 10

/-- A message id with its fields. -/
structure Entry where
  id : Nat
  payload : Option (List UInt8)

/-- An entry that is handled, its event, and the entries after it. -/
structure Job where
  entry : Entry
  event : EventId
  todo : List Entry

/-- The await a worker is at. -/
inductive Phase where
  /-- `_ensure_group` at the start. -/
  | ensuring
  /-- `_reclaim_pending`, with the passes left, the cursor and what it has. -/
  | reclaiming (passes cursor : Nat) (out : List Entry)
  /-- Between two entries. -/
  | boundary (todo : List Entry)
  | reading
  /-- `_ensure_group` after a failed read. -/
  | recreating
  | parking (entry : Entry) (error : String) (attempts : Nat) (todo : List Entry)
  | claiming (job : Job)
  | counting (job : Job) (claimedAt : Nat)
  /-- The handler runs. -/
  | handling (job : Job) (claimedAt attempts : Nat)
  | releasing (job : Job) (claimedAt : Nat) (error : String) (attempts : Nat)
  | acking (id : Nat) (todo : List Entry)
  | clearing (id : Nat) (todo : List Entry)
  /-- `start` has returned, or the process is gone. -/
  | ended

structure Worker where
  group : String
  consumer : String
  stopping : Bool
  phase : Phase

/-- What moves a worker on: the reply of Redis, the end of the handler, `stop()` or
    a crash. -/
inductive Drive where
  | proceed
  | succeed
  | raise (error : String)
  | stop
  | crash

/-- The entries of these ids. -/
def entriesOf (stream : Redis.Stream (Option (List UInt8))) (ids : List Nat) : List Entry :=
  ids.filterMap fun id => (stream.entryAt id).map (Entry.mk id)

/-- The event in a payload, or the error its entry is put in the DLQ with. -/
def eventOf (bus : Bus) (payload : Option (List UInt8)) : Parsed :=
  match payload with
  | none => .malformed "missing payload field"
  | some [] => .malformed "missing payload field"
  | some raw =>
      match bus.parseEnvelope raw with
      | .malformed error => .malformed ("deserialize: " ++ error)
      | parsed => parsed

/-- `_handle_one` up to its first await. -/
def handleOne (bus : Bus) (entry : Entry) (todo : List Entry) : Phase :=
  match eventOf bus entry.payload with
  | .malformed error => .parking entry error 1 todo
  | .envelope event => .claiming ⟨entry, event, todo⟩
  -- `_handle_one` catches no error of the schema: `start` raises it.
  | .invalid => .ended

/-- One pass of `_reclaim_pending`. -/
def reclaimPass (worker : Worker) (passes cursor : Nat) (out : List Entry) (shared : Shared) :
    Shared × Phase :=
  match shared.stream.xautoclaim shared.now worker.group worker.consumer RECLAIM_IDLE_MS cursor
      READ_COUNT with
  | none => (shared, .boundary out)
  | some ((ids, nextCursor), stream) =>
      let new := (entriesOf stream ids).filter fun entry => entry.id ∉ out.map Entry.id
      ({ shared with stream },
        if new.isEmpty ∨ nextCursor = 0 ∨ nextCursor = cursor then .boundary (out ++ new)
        else .reclaiming passes nextCursor (out ++ new))

/-- A step of a worker at a command of Redis, or between two entries. -/
def proceed (bus : Bus) (worker : Worker) (shared : Shared) : Phase → Option (Shared × Phase)
  | .ensuring =>
      some ({ shared with stream := shared.stream.xgroupCreate worker.group },
        .reclaiming RECLAIM_MAX_PASSES 0 [])
  | .reclaiming 0 _ out => some (shared, .boundary out)
  | .reclaiming (passes + 1) cursor out => some (reclaimPass worker passes cursor out shared)
  | .boundary todo =>
      some (shared,
        if worker.stopping then .ended
        else
          match todo with
          | [] => .reading
          | entry :: rest => handleOne bus entry rest)
  | .reading =>
      match shared.stream.xreadgroup shared.now worker.group worker.consumer READ_COUNT with
      | none => some (shared, .recreating)
      | some (ids, stream) => some ({ shared with stream }, .boundary (entriesOf stream ids))
  | .recreating =>
      some ({ shared with stream := shared.stream.xgroupCreate worker.group }, .boundary [])
  | .parking entry error attempts todo =>
      some ({ shared with
        dlq := shared.dlq ++
          [⟨entry.id, error, attempts, bus.stream, worker.group, worker.consumer⟩]
        log := shared.log ++ [.parked worker.group entry.id] }, .acking entry.id todo)
  | .claiming job =>
      let claimed := IdempotencyStore.claim bus worker.consumer job.event shared
      if claimed.1 then
        some ({ shared with
          claims := claimed.2
          log := shared.log ++ [.claimed worker.group worker.consumer job.event] },
          .counting job shared.now)
      else some ({ shared with claims := claimed.2 }, .acking job.entry.id job.todo)
  | .counting job claimedAt =>
      let attempts := shared.deliveries worker.group job.entry.id + 1
      some ({ shared with
        deliveries := fun group id =>
          if group = worker.group ∧ id = job.entry.id then attempts
          else shared.deliveries group id }, .handling job claimedAt attempts)
  | .handling .. => none
  | .releasing job _ error attempts =>
      some ({ shared with claims := IdempotencyStore.release bus worker.consumer job.event shared },
        if MAX_DELIVERIES ≤ attempts then .parking job.entry error attempts job.todo
        else .boundary job.todo)
  | .acking id todo =>
      some ({ shared with
        stream := shared.stream.xack worker.group id
        log := shared.log ++ [.acked worker.group id] }, .clearing id todo)
  | .clearing id todo =>
      some ({ shared with
        deliveries := fun group other =>
          if group = worker.group ∧ other = id then 0 else shared.deliveries group other },
        .boundary todo)
  | .ended => none

/-- The event a worker has claimed whose handler's run is not over, and since when. -/
def Phase.flight : Phase → Option (EventId × Nat)
  | .counting job claimedAt => some (job.event, claimedAt)
  | .handling job claimedAt _ => some (job.event, claimedAt)
  | .releasing job claimedAt _ _ => some (job.event, claimedAt)
  | _ => none

def Phase.live : Phase → Bool
  | .ended => false
  | _ => true

/-- The log once a worker has crashed. -/
def afterCrash (worker : Worker) (log : List Happening) : List Happening :=
  match worker.phase.flight with
  | some (event, _) => log ++ [.abandoned worker.consumer event]
  | none => log

def actOf (bus : Bus) (shared : Shared) (worker : Worker) : Drive → Option (Shared × Worker)
  | .proceed =>
      (proceed bus worker shared worker.phase).map fun next =>
        (next.1, { worker with phase := next.2 })
  | .succeed =>
      match worker.phase with
      | .handling job claimedAt _ =>
          some ({ shared with
            log := shared.log ++
              [.completed worker.group worker.consumer job.event claimedAt] },
            { worker with phase := .acking job.entry.id job.todo })
      | _ => none
  | .raise error =>
      match worker.phase with
      | .handling job claimedAt attempts =>
          some (shared, { worker with phase := .releasing job claimedAt error attempts })
      | _ => none
  | .stop => if worker.phase.live then some (shared, { worker with stopping := true }) else none
  | .crash =>
      if worker.phase.live then
        some ({ shared with log := afterCrash worker shared.log }, { worker with phase := .ended })
      else none

inductive Surroundings where
  | publish (payload : Option (List UInt8))
  | tick (ms : Nat)

/-- The workers of a stream.  No two that run have one name in one group. -/
def consumers (bus : Bus) : Program Shared Worker Drive Surroundings where
  act := actOf bus
  environment shared event :=
    match event with
    | .publish payload => some { shared with stream := shared.stream.xadd payload }
    | .tick ms => some { shared with now := shared.now + ms }
  admits _ workers worker :=
    (match worker.phase with | .ensuring => !worker.stopping | _ => false) &&
      workers.all fun other => !(other.phase.live && other.group == worker.group &&
        other.consumer == worker.consumer)
  enter shared _ := shared

abbrev ConsumerMove := PoolMove Shared Worker Drive Surroundings

def unpublished : Pool Shared Worker := ⟨.init, []⟩

end AiPlatform.Events
