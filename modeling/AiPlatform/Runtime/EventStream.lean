/-
  AiPlatform.Runtime.EventStream

  The event stream of a thread (`events` in `http_service/events.rs`) next to
  those who append to the durable log and broadcast what they have appended.

  One move is one step of one party: a committed append, a broadcast, a read of
  the log, a message taken from the channel, or one turn of a loop that yields
  the events of a page.  A publisher sends after its append has committed, so
  two of them may send in either order, and one may never send.  The channel
  keeps `EVENT_CHANNEL_CAPACITY` messages; a receiver that falls behind loses
  the oldest and is told so once.

  `toString` stands for `serde_json::to_string`.  Requests that fail before the
  subscription get an error response and no stream; they are left out.
-/

import AiPlatform.Lib.Machine
import AiPlatform.Lib.SeqLog
import AiPlatform.Json.Value
import Mathlib.Algebra.Group.Nat.Defs

namespace AiPlatform.Runtime

open AiPlatform.Json Transition

def EVENT_CHANNEL_CAPACITY : Nat := 256

/-- `i64::MAX`, the sequence of an event that is not in the log. -/
def I64_MAX : Nat := 2 ^ 63 - 1

/-- The largest page `read_v1_events_after` returns. -/
def MAX_EVENT_PAGE : Int := 1000

/-! ## Events and the log -/

/-- `timestamp` is the bits of the `f64`. -/
structure AssistantTurnEventV1 where
  schemaVersion : String
  eventType : String
  data : Value
  timestamp : UInt64

structure SequencedAssistantTurnEventV1 where
  sequence : Nat
  event : AssistantTurnEventV1

/-- What a row of `assistant_runtime_items` holds, by its event type:
    `compat/v1/..`, or any other. -/
inductive ItemPayload where
  | compatV1 (event : AssistantTurnEventV1)
  | other

structure RuntimeItem where
  sequence : Nat
  kernelThreadId : String
  eventId : String
  eventKey : String
  payload : ItemPayload

/-- The row as `read_v1_events_after` selects it. -/
def RuntimeItem.v1 (item : RuntimeItem) : Option SequencedAssistantTurnEventV1 :=
  match item.payload with
  | .compatV1 event => some { sequence := item.sequence, event := event }
  | .other => none

/-- The items of one root thread, and its `last_sequence`. -/
structure RootLog where
  lastSequence : Nat
  items : List RuntimeItem

inductive ThreadStoreError where
  | invalidRequest
  | conflict
  | internal
  deriving DecidableEq, Repr

/-- A replay may carry another timestamp. -/
def sameEventFact (original replay : AssistantTurnEventV1) : Bool :=
  original.schemaVersion == replay.schemaVersion
    && original.eventType == replay.eventType
    && original.data.beq replay.data

namespace RootLog

/-- The V1 events in order. -/
def v1 (log : RootLog) : List SequencedAssistantTurnEventV1 :=
  log.items.filterMap RuntimeItem.v1

/-- `append_assistant_runtime_item` on a key that is not taken. -/
def push (log : RootLog) (kernelThreadId eventId eventKey : String) (payload : ItemPayload) :
    RootLog :=
  { lastSequence := log.lastSequence + 1
    items := log.items ++
      [{ sequence := log.lastSequence + 1
         kernelThreadId := kernelThreadId
         eventId := eventId
         eventKey := eventKey
         payload := payload }] }

/-- `append_v1_event` up to its commit: the sequence, and the log with the event
    in it. -/
def appendV1Event (log : RootLog) (kernelThreadId eventId eventKey : String)
    (event : AssistantTurnEventV1) : Except ThreadStoreError (Nat × RootLog) :=
  if eventKey.utf8ByteSize = 0 ∨ 255 < eventKey.utf8ByteSize then .error .invalidRequest
  else
    match log.items.find? (fun item => item.eventKey == eventKey) with
    | some item =>
        if item.kernelThreadId ≠ kernelThreadId then .error .conflict
        else
          match item.payload with
          | .other => .error .internal
          | .compatV1 original =>
              if item.eventId ≠ eventId ∨ sameEventFact original event = false then
                .error .conflict
              else .ok (item.sequence, log)
    | none =>
        -- `last_sequence` is a BIGINT
        if I64_MAX ≤ log.lastSequence then .error .internal
        else
          .ok (log.lastSequence + 1,
            log.push kernelThreadId eventId eventKey (.compatV1 event))

/-- An append of an item of another type. -/
def appendItem (log : RootLog) (kernelThreadId eventId eventKey : String) : RootLog :=
  if log.items.any (fun item => item.eventKey == eventKey) = true
      ∨ I64_MAX ≤ log.lastSequence then log
  else log.push kernelThreadId eventId eventKey .other

def readV1EventsAfter (log : RootLog) (afterSequence limit : Int) :
    Except ThreadStoreError (List SequencedAssistantTurnEventV1) :=
  if afterSequence < 0 ∨ ¬ (1 ≤ limit ∧ limit ≤ MAX_EVENT_PAGE) then .error .invalidRequest
  else
    .ok ((SeqLog.after SequencedAssistantTurnEventV1.sequence afterSequence.toNat log.v1).take
      limit.toNat)

end RootLog

/-! ## The broadcast channel -/

structure RuntimeBroadcastEvent where
  rootThreadId : String
  event : SequencedAssistantTurnEventV1

/-- What a receiver has still to take, and how many messages it has lost. -/
structure Receiver where
  queue : List RuntimeBroadcastEvent
  lagged : Nat

/-- A message on a full channel pushes out the oldest one. -/
def Receiver.push (receiver : Receiver) (message : RuntimeBroadcastEvent) : Receiver :=
  if receiver.queue.length < EVENT_CHANNEL_CAPACITY then
    { receiver with queue := receiver.queue ++ [message] }
  else
    { queue := receiver.queue.tail ++ [message], lagged := receiver.lagged + 1 }

/-! ## The stream -/

structure EventsQuery where
  afterSequence : Int := 0
  limit : Int := 200

structure SseEvent where
  id : String
  event : String
  data : String

def sseEvent (toString : SequencedAssistantTurnEventV1 → Option String)
    (event : SequencedAssistantTurnEventV1) : Option SseEvent :=
  match toString event with
  | none => none
  | some data =>
      some { id := event.sequence.repr, event := event.event.eventType, data := data }

/-- Where `events` stands. -/
inductive StreamPhase where
  /-- Before `subscribe()`. -/
  | requested
  /-- Before the initial page is read. -/
  | subscribed
  /-- In a loop over a page. -/
  | draining (backlog : List SequencedAssistantTurnEventV1)
  /-- At the `select!`. -/
  | selecting
  /-- After a tick or a lag, before the page is read. -/
  | reading
  | closed

/-- The log of the thread, the publishers that have appended and not sent yet,
    and the stream: `sent` are the events it has yielded. -/
structure StreamState where
  log : RootLog
  outbox : List SequencedAssistantTurnEventV1
  receiver : Receiver
  phase : StreamPhase
  cursor : Nat
  sent : List SequencedAssistantTurnEventV1

namespace StreamState

/-- A message reaches the receiver once there is one. -/
def deliver (s : StreamState) (message : RuntimeBroadcastEvent) : StreamState :=
  match s.phase with
  | .requested => s
  | _ => { s with receiver := s.receiver.push message }

/-- Move the cursor to the event and yield it. -/
def yieldEvent (toString : SequencedAssistantTurnEventV1 → Option String)
    (s : StreamState) (event : SequencedAssistantTurnEventV1) : StreamState :=
  { s with
    cursor := event.sequence
    sent := if (sseEvent toString event).isSome then s.sent ++ [event] else s.sent }

end StreamState

inductive StreamInput where
  | append (kernelThreadId eventId eventKey : String) (event : AssistantTurnEventV1)
  | appendItem (kernelThreadId eventId eventKey : String)
  | send (index : Nat)
  | sendTransient (event : AssistantTurnEventV1)
  | sendOther (message : RuntimeBroadcastEvent)
  | subscribe
  | readInitial (available : Bool)
  | next
  | recv
  | tick
  | readBacklog (available : Bool)
  | shutdown

/-- One step; `none` where the input is not enabled. -/
def StreamInput.step (toString : SequencedAssistantTurnEventV1 → Option String)
    (root : String) (query : EventsQuery) (s : StreamState) :
    StreamInput → Option StreamState
  | .append kernelThreadId eventId eventKey event =>
      match s.log.appendV1Event kernelThreadId eventId eventKey event with
      | .error _ => some s
      | .ok (sequence, log) =>
          some { s with
            log := log
            outbox := s.outbox ++ [{ sequence := sequence, event := event }] }
  | .appendItem kernelThreadId eventId eventKey =>
      some { s with log := s.log.appendItem kernelThreadId eventId eventKey }
  | .send index =>
      match s.outbox[index]? with
      | none => none
      | some event =>
          some ({ s with outbox := s.outbox.eraseIdx index }.deliver
            { rootThreadId := root, event := event })
  -- a terminal failure that could not be stored
  | .sendTransient event =>
      some (s.deliver
        { rootThreadId := root, event := { sequence := I64_MAX, event := event } })
  | .sendOther message =>
      if message.rootThreadId = root then none else some (s.deliver message)
  | .subscribe =>
      match s.phase with
      | .requested => some { s with phase := .subscribed }
      | _ => none
  | .readInitial available =>
      match s.phase with
      | .subscribed =>
          if available then
            match s.log.readV1EventsAfter query.afterSequence query.limit with
            | .error _ => some { s with phase := .closed }
            | .ok initial => some { s with phase := .draining initial }
          else some { s with phase := .closed }
      | _ => none
  | .next =>
      match s.phase with
      | .draining [] => some { s with phase := .selecting }
      | .draining (event :: backlog) =>
          some ({ s with phase := .draining backlog }.yieldEvent toString event)
      | _ => none
  | .recv =>
      match s.phase with
      | .selecting =>
          if 0 < s.receiver.lagged then
            some { s with
              receiver := { s.receiver with lagged := 0 }
              phase := .reading }
          else
            match s.receiver.queue with
            | [] => none
            | message :: queue =>
                let taken := { s with receiver := { s.receiver with queue := queue } }
                if message.rootThreadId = root ∧ s.cursor < message.event.sequence then
                  some (taken.yieldEvent toString message.event)
                else some taken
      | _ => none
  | .tick =>
      match s.phase with
      | .selecting => some { s with phase := .reading }
      | _ => none
  | .readBacklog available =>
      match s.phase with
      | .reading =>
          if available then
            match s.log.readV1EventsAfter s.cursor MAX_EVENT_PAGE with
            | .error _ => some { s with phase := .closed }
            | .ok backlog => some { s with phase := .draining backlog }
          else some { s with phase := .closed }
      | _ => none
  | .shutdown =>
      match s.phase with
      | .selecting => some { s with phase := .closed }
      | _ => none

def eventsMachine (toString : SequencedAssistantTurnEventV1 → Option String)
    (root : String) (query : EventsQuery) : Machine StreamState StreamInput Unit where
  step s input := (input.step toString root query s).map (fun t => ((), t))

abbrev StreamMove := Move StreamState StreamInput Unit

end AiPlatform.Runtime
