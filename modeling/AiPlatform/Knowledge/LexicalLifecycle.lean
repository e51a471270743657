/-
  AiPlatform.Knowledge.LexicalLifecycle

  The cutover and rollback of a dataset's lexical index (`cutover`, `rollback` and
  `_abort` of `bm25_v2_lifecycle.py`) as executors over two stores.

  What is kept of the stores is which index PostgreSQL and the collection select,
  the receipt on the collection, the lifecycle row and the transition barrier.  An
  executor makes one store call at a time.  A call comes off, or it raises with
  nothing done, or it raises after it took effect (`ensure_lexical_config` verifies
  what it wrote; a connection can be lost after the commit), or the process dies.
  Checks of data that is not modelled here (digests, counts, fingerprints,
  revisions) are calls that raise.
-/

import AiPlatform.Lib.Pool

namespace AiPlatform.Knowledge

open Transition

/-! ## The stores -/

inductive Selection where
  | lexicalV1
  | bm25V2
  deriving DecidableEq, Repr

inductive ReceiptStatus where
  | absent
  | complete
  | invalidated
  deriving DecidableEq, Repr

inductive LifecycleState where
  | shadow
  | cutoverInProgress
  | rollbackInProgress
  | activeV2
  deriving DecidableEq, Repr

structure LifecycleRow where
  state : LifecycleState
  epoch : Nat
  lockToken : Option Nat
  deriving DecidableEq

/-- `tokens` is how many lock tokens have been drawn; `barrier` tells whether the
    advisory lock of `transition_barrier` is held. -/
structure Stores where
  postgres : Selection
  collection : Selection
  receipt : ReceiptStatus
  row : Option LifecycleRow
  tokens : Nat
  barrier : Bool
  deriving DecidableEq

/-- The steady state that goes with what PostgreSQL selects. -/
def steadyOf : Selection → LifecycleState
  | .lexicalV1 => .shadow
  | .bm25V2 => .activeV2

inductive Kind where
  | cutover
  | rollback
  deriving DecidableEq, Repr

namespace Kind

def origin : Kind → Selection
  | cutover => .lexicalV1
  | rollback => .bm25V2

def target : Kind → Selection
  | cutover => .bm25V2
  | rollback => .lexicalV1

def inProgress : Kind → LifecycleState
  | cutover => .cutoverInProgress
  | rollback => .rollbackInProgress

end Kind

namespace Stores

variable (s : Stores)

def ensureRow : Stores := { s with row := s.row.getD ⟨.shadow, 0, none⟩ }

def setRow (state : LifecycleState) (token : Option Nat) : Stores :=
  { s with row := some ⟨state, s.row.elim 1 fun row => row.epoch + 1, token⟩ }

/-- `reset_stale_transition`, or `reconcile_steady_state` for a steady row. -/
def recover (found steady : LifecycleState) : Option Stores :=
  match s.row with
  | some row => if row.state = found then some (s.setRow steady none) else none
  | none => none

/-- `begin_transition`. -/
def beginTransition (kind : Kind) : Option Stores :=
  match s.row with
  | some row =>
      if row.state = steadyOf kind.origin then
        some { s.setRow kind.inProgress (some s.tokens) with tokens := s.tokens + 1 }
      else none
  | none => some { s.setRow kind.inProgress (some s.tokens) with tokens := s.tokens + 1 }

/-- `_settle`. -/
def settle (kind : Kind) (epoch token : Nat) (state : LifecycleState) : Option Stores :=
  match s.row with
  | some row =>
      if row.epoch = epoch ∧ row.lockToken = some token ∧ row.state = kind.inProgress then
        some (s.setRow state none)
      else none
  | none => none

/-- `flip_dataset_lexical_active_version`. -/
def flipActiveVersion (expected target : Selection) : Option Stores :=
  if s.postgres = expected then some { s with postgres := target } else none

/-- `invalidate_bm25_v2_receipt`. -/
def invalidateReceipt : Stores :=
  { s with receipt := if s.receipt = .complete then .invalidated else s.receipt }

end Stores

/-! ## Executors -/

/-- The calls of a transition, from `begin_transition` on. -/
inductive Call where
  | awaitQuiescence
  | scanBefore
  | invalidateReceipt
  | ensureLexicalConfig
  | scanAfter
  | publishReceipt
  | flipActiveVersion
  | verifyReadiness
  | requireReadable
  | finishTransition
  deriving DecidableEq, Repr

def Kind.calls : Kind → List Call
  | .cutover =>
      [.awaitQuiescence, .scanBefore, .invalidateReceipt, .ensureLexicalConfig, .scanAfter,
        .publishReceipt, .flipActiveVersion, .verifyReadiness, .finishTransition]
  | .rollback =>
      [.invalidateReceipt, .flipActiveVersion, .ensureLexicalConfig, .requireReadable,
        .finishTransition]

/-- The calls of `_abort`. -/
inductive AbortCall where
  | snapshot
  | flipBack
  | profile
  | invalidateReceipt
  | ensureLexicalConfig
  | failTransition
  deriving DecidableEq, Repr

/-- What a transition knows of itself.  `pgFlipped` and `qdrantFlipped` are the flags of
    the source; `pgMoved` and `collectionMoved` tell what its calls have done. -/
structure Attempt where
  epoch : Nat
  token : Nat
  pgFlipped : Bool
  qdrantFlipped : Bool
  pgMoved : Bool
  collectionMoved : Bool
  deriving DecidableEq

inductive Phase where
  /-- `_preflight`: the dataset, the collection. -/
  | snapshot
  | profile (postgres : Selection)
  /-- `get_state` and `ensure_row` before the barrier. -/
  | state (postgres : Selection)
  | ensureRow
  | barrier
  /-- `_recover_stale_row`. -/
  | recoverState
  | recoverEnsure
  | recoverSnapshot (found : LifecycleState)
  | recoverWrite (found steady : LifecycleState)
  | recoverRead
  | authority
  | beginTransition
  | running (calls : List Call) (attempt : Attempt)
  | aborting (call : AbortCall) (attempt : Attempt)
  | finished
  deriving DecidableEq

structure Executor where
  kind : Kind
  phase : Phase
  deriving DecidableEq

/-- The executor holds the barrier. -/
def Phase.critical : Phase → Bool
  | snapshot | profile _ | state _ | ensureRow | barrier | finished => false
  | _ => true

/-- The flags once the call has come off. -/
def Attempt.after (attempt : Attempt) (kind : Kind) : Call → Attempt
  | .ensureLexicalConfig =>
      { attempt with
        qdrantFlipped := decide (kind = .cutover) || attempt.qdrantFlipped
        collectionMoved := true }
  | .flipActiveVersion => { attempt with pgFlipped := true, pgMoved := true }
  | _ => attempt

/-- The call raises after it took effect: the source's flags stay. -/
def Attempt.lose (attempt : Attempt) : Call → Attempt
  | .ensureLexicalConfig => { attempt with collectionMoved := true }
  | .flipActiveVersion => { attempt with pgMoved := true }
  | _ => attempt

/-- What a call of a transition does to the stores, if its own check passes. -/
def Call.perform (s : Stores) (kind : Kind) (attempt : Attempt) : Call → Option Stores
  | .invalidateReceipt => some s.invalidateReceipt
  | .ensureLexicalConfig => some { s with collection := kind.target }
  | .publishReceipt => some { s with receipt := .complete }
  | .flipActiveVersion => s.flipActiveVersion kind.origin kind.target
  | .finishTransition => s.settle kind attempt.epoch attempt.token (steadyOf kind.target)
  | .awaitQuiescence | .scanBefore | .scanAfter | .verifyReadiness | .requireReadable => some s

/-- What `_abort` does after PostgreSQL is back: only a cutover takes the collection
    back. -/
def revertCollection (kind : Kind) (attempt : Attempt) : AbortCall :=
  if kind = .cutover ∧ attempt.qdrantFlipped = true then .profile else .failTransition

/-- The call at hand comes off: the stores and the phase after it.  `none` when its own
    check fails. -/
def Executor.proceed (e : Executor) (s : Stores) : Option (Stores × Phase) :=
  match e.phase with
  | .snapshot => some (s, .profile s.postgres)
  | .profile postgres =>
      if e.kind = .cutover ∧ postgres = .bm25V2 then some (s, .finished) else some (s, .state postgres)
  | .state postgres =>
      match e.kind with
      | .cutover => some (s, if s.row = none then .ensureRow else .barrier)
      | .rollback =>
          if postgres ≠ .bm25V2 ∧ (s.row = none ∨ ∃ row, s.row = some row ∧ row.state = .shadow) then
            some (s, .finished)
          else some (s, .barrier)
  | .ensureRow => some (s.ensureRow, .barrier)
  | .barrier => if s.barrier then none else some ({ s with barrier := true }, .recoverState)
  | .recoverState =>
      match s.row with
      | some row => some (s, .recoverSnapshot row.state)
      | none => some (s, .recoverEnsure)
  | .recoverEnsure => some (s.ensureRow, .recoverState)
  | .recoverSnapshot found =>
      let steady := steadyOf s.postgres
      some (s, if found = steady then .recoverRead else .recoverWrite found steady)
  | .recoverWrite found steady => (s.recover found steady).map fun s' => (s', .recoverRead)
  | .recoverRead =>
      match s.row with
      | some row => if row.state = steadyOf e.kind.origin then some (s, .authority) else none
      | none => none
  | .authority => some (s, .beginTransition)
  | .beginTransition =>
      (s.beginTransition e.kind).map fun s' =>
        (s', .running e.kind.calls
          ⟨s'.row.elim 0 LifecycleRow.epoch, s.tokens, false, false, false, false⟩)
  | .running [] _ => none
  | .running (call :: calls) attempt =>
      (call.perform s e.kind attempt).map fun s' =>
        (s', if calls = [] then .finished else .running calls (attempt.after e.kind call))
  | .aborting .snapshot attempt =>
      some (s, .aborting (if attempt.pgFlipped then .flipBack else revertCollection e.kind attempt)
        attempt)
  | .aborting .flipBack attempt =>
      (s.flipActiveVersion e.kind.target e.kind.origin).map fun s' =>
        (s', .aborting (revertCollection e.kind attempt) { attempt with pgMoved := false })
  | .aborting .profile attempt =>
      some (s, .aborting
        (if s.collection = .bm25V2 then .invalidateReceipt else .failTransition) attempt)
  | .aborting .invalidateReceipt attempt =>
      some (s.invalidateReceipt, .aborting .ensureLexicalConfig attempt)
  | .aborting .ensureLexicalConfig attempt =>
      some ({ s with collection := .lexicalV1 }, .aborting .failTransition attempt)
  | .aborting .failTransition attempt =>
      (s.settle e.kind attempt.epoch attempt.token (steadyOf e.kind.origin)).map fun s' => (s', .finished)
  | .finished => none

/-- Where the call at hand leaves the executor when it raises. -/
def Phase.raised : Phase → Phase
  | running _ attempt => aborting .snapshot attempt
  | aborting .failTransition _ => finished
  | aborting _ attempt => aborting .failTransition attempt
  | _ => finished

/-- The same, when it took effect all the same. -/
def Phase.lost : Phase → Phase
  | running (call :: _) attempt => aborting .snapshot (attempt.lose call)
  | phase => phase.raised

inductive Outcome where
  | done
  | refused
  | lost
  | crash
  deriving DecidableEq, Repr

/-- The executor goes on to the phase, and gives the barrier back at the end. -/
def Executor.enter (e : Executor) (s : Stores) (phase : Phase) : Stores × Executor :=
  (if e.phase.critical ∧ phase = .finished then { s with barrier := false } else s,
    { e with phase := phase })

def Executor.act (s : Stores) (e : Executor) (outcome : Outcome) : Option (Stores × Executor) :=
  match e.phase, outcome with
  | .finished, _ => none
  | _, .done =>
      match e.proceed s with
      | some (s', phase) => some (e.enter s' phase)
      | none => some (e.enter s e.phase.raised)
  | _, .refused => some (e.enter s e.phase.raised)
  | _, .lost => (e.proceed s).map fun next => e.enter next.1 e.phase.lost
  | _, .crash => some (e.enter s .finished)

/-- Cutovers and rollbacks are called at any time. -/
def lifecycle : Program Stores Executor Outcome Empty where
  act := Executor.act
  environment _ event := event.elim
  admits _ _ e := decide (e.phase = .snapshot)
  enter s _ := s

/-- No transition is under way. -/
def Stores.atRest (postgres collection : Selection) (receipt : ReceiptStatus)
    (row : Option LifecycleRow) : Pool Stores Executor :=
  ⟨⟨postgres, collection, receipt, row, 0, false⟩, []⟩

end AiPlatform.Knowledge
