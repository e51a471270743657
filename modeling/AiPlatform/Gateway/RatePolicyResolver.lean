/-
  AiPlatform.Gateway.RatePolicyResolver

  The cache of the rate limit rules (`RatePolicyResolver`): its snapshot, the epoch in
  its key, the lock around a refresh, the refresh in the background and the failure
  it remembers.

  Its tasks are interleaved at their awaits, which are that of the lock and that of
  the database.  Every read of the database is kept, with what had come before it
  began and the instant it completed at.
-/

import AiPlatform.Gateway.RatePolicy
import AiPlatform.Lib.Machine

namespace AiPlatform.Gateway

open Transition

/-- `(id(db), epoch)` -/
abbrev CacheKey := Nat × Nat

/-- Times are counted in ticks of the monotonic clock. -/
structure RateSettings where
  cacheTtl : Nat
  maxStale : Nat
  refreshFailureRetry : Nat
  /-- `id` of the database. -/
  database : Nat

/-- The bounds `__init__` puts on its arguments; `second` is one second. -/
def RateSettings.ofArguments (second database : Nat) (cacheTtl maxStale : Int) : RateSettings where
  cacheTtl := (max cacheTtl 0).toNat
  maxStale := (max maxStale 0).toNat
  refreshFailureRetry := second
  database := database

structure RuleSnapshot where
  cacheKey : CacheKey
  expiresAt : Nat
  staleUntil : Nat
  rules : List RateRule
  /-- The read the rules come from. -/
  read : Nat

/-- One call of `get_rate_limits`. -/
structure RuleRead where
  /-- How many calls of `invalidate` there had been when it began. -/
  invalidations : Nat
  /-- The rows, once the query has run. -/
  rows : Option (List RateRule)
  completed : Option Nat

inductive TaskOrigin where
  | resolve (request : ResolveRequest)
  /-- The background task of a stale snapshot. -/
  | refresh

inductive ResolveError where
  | databaseError
  | cancelled
  deriving DecidableEq, Repr

inductive TaskStatus where
  /-- Before `async with self._refresh_lock`. -/
  | waiting
  /-- At `await db.get_rate_limits()`, with the lock. -/
  | reading (read : Nat)
  /-- Answered by the service's own configuration. -/
  | answered (policy : RatePolicy)
  | returned (rules : List RateRule) (read : Nat) (now : Nat)
  | raised (error : ResolveError)

structure ResolverTask where
  origin : TaskOrigin
  cacheKey : CacheKey
  began : Nat
  /-- How many calls of `invalidate` there had been when it began. -/
  invalidations : Nat
  /-- `cancel` has been called on it. -/
  cancelled : Bool
  status : TaskStatus

def ResolverTask.done (task : ResolverTask) : Bool :=
  match task.status with
  | .waiting | .reading _ => false
  | .answered _ | .returned _ _ _ | .raised _ => true

structure Resolver where
  now : Nat
  /-- The rows of the table. -/
  table : List RateRule
  epoch : Nat
  snapshot : Option RuleSnapshot
  /-- The task that holds the lock. -/
  lock : Option Nat
  refreshTask : Option Nat
  refreshFailure : Option (CacheKey × Nat)
  tasks : List ResolverTask
  reads : List RuleRead
  invalidations : Nat

namespace Resolver

def new (now : Nat) (table : List RateRule) : Resolver where
  now := now
  table := table
  epoch := 0
  snapshot := none
  lock := none
  refreshTask := none
  refreshFailure := none
  tasks := []
  reads := []
  invalidations := 0

/-- `snapshot is not None and snapshot.cache_key == cache_key` -/
def snapshotOf (s : Resolver) (key : CacheKey) : Option RuleSnapshot :=
  s.snapshot.filter fun snapshot => snapshot.cacheKey == key

def spawn (s : Resolver) (origin : TaskOrigin) (key : CacheKey) (status : TaskStatus) : Resolver :=
  { s with tasks := s.tasks ++ [⟨origin, key, s.now, s.invalidations, false, status⟩] }

/-- `_schedule_stale_refresh` -/
def scheduleStaleRefresh (s : Resolver) (key : CacheKey) : Resolver :=
  if s.refreshTask.any fun i => (s.tasks[i]?).any fun task => !task.done then s
  else { s.spawn .refresh key .waiting with refreshTask := some s.tasks.length }

/-- `resolve` up to its first await. -/
def resolve (settings : RateSettings) (request : ResolveRequest) (s : Resolver) : Resolver :=
  let key := (settings.database, s.epoch)
  match serviceConfigPolicy request with
  | some policy => s.spawn (.resolve request) key (.answered policy)
  | none =>
      match s.snapshotOf key with
      | some snapshot =>
          if s.now < snapshot.expiresAt then
            s.spawn (.resolve request) key (.returned snapshot.rules snapshot.read s.now)
          else if s.now ≤ snapshot.staleUntil then
            (s.scheduleStaleRefresh key).spawn (.resolve request) key
              (.returned snapshot.rules snapshot.read s.now)
          -- The stale budget is exhausted.
          else s.spawn (.resolve request) key .waiting
      | none => s.spawn (.resolve request) key .waiting

/-- The end of a task; the background task takes itself out. -/
def finish (s : Resolver) (i : Nat) (task : ResolverTask) (status : TaskStatus) : Resolver :=
  { s with
    tasks := s.tasks.set i { task with status := status }
    lock := if s.lock = some i then none else s.lock
    refreshTask := if s.refreshTask = some i then none else s.refreshTask }

/-- `_refresh_rules` from the lock to the database. -/
def enter (s : Resolver) (i : Nat) (task : ResolverTask) : Resolver :=
  match (s.snapshotOf task.cacheKey).filter fun snapshot => decide (s.now < snapshot.expiresAt) with
  | some snapshot => s.finish i task (.returned snapshot.rules snapshot.read s.now)
  | none =>
      if s.refreshFailure.any fun failure =>
          failure.1 == task.cacheKey && decide (s.now < failure.2) then
        s.finish i task (.raised .databaseError)
      else
        { s with
          lock := some i
          tasks := s.tasks.set i { task with status := .reading s.reads.length }
          reads := s.reads ++ [⟨s.invalidations, none, none⟩] }

/-- `_refresh_rules` once the database has answered. -/
def complete (settings : RateSettings) (s : Resolver) (i : Nat) (task : ResolverTask) (index : Nat)
    (read : RuleRead) (rows : List RateRule) : Resolver :=
  let compiled := compileRules rows
  let done :=
    { s.finish i task (.returned compiled index s.now) with
      reads := s.reads.set index { read with completed := some s.now } }
  if task.cacheKey = (settings.database, s.epoch) then
    { done with
      refreshFailure := none
      snapshot := some
        { cacheKey := task.cacheKey
          expiresAt := s.now + settings.cacheTtl
          staleUntil := s.now + settings.cacheTtl + settings.maxStale
          rules := compiled
          read := index } }
  else done

/-- `_refresh_rules` once the database has failed. -/
def fail (settings : RateSettings) (s : Resolver) (i : Nat) (task : ResolverTask) : Resolver :=
  let done := s.finish i task (.raised .databaseError)
  if task.cacheKey = (settings.database, s.epoch) then
    { done with refreshFailure := some (task.cacheKey, s.now + settings.refreshFailureRetry) }
  else done

def invalidate (s : Resolver) : Resolver :=
  { s with
    epoch := s.epoch + 1
    snapshot := none
    refreshFailure := none
    refreshTask := none
    tasks :=
      match s.refreshTask with
      | some i => s.tasks.modify i fun task => { task with cancelled := true }
      | none => s.tasks
    invalidations := s.invalidations + 1 }

end Resolver

inductive ResolverInput where
  | resolve (request : ResolveRequest)
  | enter (i : Nat)
  /-- The database runs the query of a task. -/
  | query (i : Nat)
  | complete (i : Nat)
  | fail (i : Nat)
  /-- `CancelledError` comes to a task at its await. -/
  | cancel (i : Nat)
  | invalidate
  | pass (ticks : Nat)
  | change (table : List RateRule)

/-- A task that is at work and not cancelled. -/
def Resolver.task? (s : Resolver) (i : Nat) : Option ResolverTask :=
  (s.tasks[i]?).filter fun task => !task.cancelled

/-- The read a task awaits. -/
def Resolver.readOf? (s : Resolver) (task : ResolverTask) : Option (Nat × RuleRead) :=
  match task.status with
  | .reading index => (s.reads[index]?).map fun read => (index, read)
  | _ => none

def resolverMachine (settings : RateSettings) : Machine Resolver ResolverInput Unit where
  step s input :=
    match input with
    | .resolve request => some ((), s.resolve settings request)
    | .enter i => do
        let task ← s.task? i
        match task.status, s.lock with
        | .waiting, none => some ((), s.enter i task)
        | _, _ => none
    | .query i => do
        let task ← s.task? i
        let (index, read) ← s.readOf? task
        match read.rows with
        | none => some ((), { s with reads := s.reads.set index { read with rows := some s.table } })
        | some _ => none
    | .complete i => do
        let task ← s.task? i
        let (index, read) ← s.readOf? task
        let rows ← read.rows
        some ((), s.complete settings i task index read rows)
    | .fail i => do
        let task ← s.task? i
        let _ ← s.readOf? task
        some ((), s.fail settings i task)
    | .cancel i => do
        let task ← s.tasks[i]?
        if task.done then none else some ((), s.finish i task (.raised .cancelled))
    | .invalidate => some ((), s.invalidate)
    | .pass ticks => some ((), { s with now := s.now + ticks })
    | .change table => some ((), { s with table := table })

end AiPlatform.Gateway
