/-
  AiPlatform.Knowledge.EmbeddingMigration

  The operations of `EmbeddingMigrationService` on one dataset, as calls that run
  beside each other.

  Each step of a call is one store call or one call of Qdrant.  Where something
  that is not kept in the store decides (evidence, an evaluator, a connection), a
  step may also raise with nothing done; a call whose process dies makes no more
  steps.  What a call answers is left out.
-/

import AiPlatform.Knowledge.EmbeddingVersions
import AiPlatform.Lib.Pool

namespace AiPlatform.Knowledge.Embedding

open Transition

/-! ## Names -/

/-- `_sanitize`: runs of other characters become one underscore, and none is left at
    the ends. -/
def sanitize (name : String) : String :=
  let cleaned := name.toList.map fun c => if c.isAlphanum || c = '_' || c = '-' then c else '_'
  let pieces := (cleaned.splitOn '_').filter fun piece => !piece.isEmpty
  let joined := String.ofList (List.intercalate ['_'] pieces)
  if joined = "" then "kb" else joined

/-- What names of shadow collections are made from: the dataset, and the first eight
    digits of a digest of the target identity. -/
structure Naming where
  datasetId : String
  identityDigest : EmbeddingIdentity → String

/-- `make_shadow_collection_name`.  A tag is never empty once it is sanitized. -/
def Naming.makeShadowCollectionName (naming : Naming) (dimension : Nat) (tag : String) : String :=
  "kb_" ++ sanitize naming.datasetId ++ "_" ++ toString dimension ++ "_v" ++ sanitize tag

/-! ## Calls -/

/-- The arguments of `start_migration`; `dataset` is the row its caller has read. -/
structure StartRequest where
  dataset : Dataset
  target : EmbeddingIdentity
  migrationTag : String
  deriving DecidableEq

/-- The name is the same for every attempt at a target. -/
def Naming.shadowName (naming : Naming) (req : StartRequest) : String :=
  let tag := if req.migrationTag = "" then naming.identityDigest req.target else req.migrationTag
  naming.makeShadowCollectionName req.target.dimension tag

inductive Task where
  /-- `start_migration`, `resolve_serving_binding`. -/
  | getServing (req : StartRequest)
  | registerServing (req : StartRequest)
  /-- The probes for auxiliary collections. -/
  | probe (req : StartRequest) (source : Nat)
  | lookup (req : StartRequest) (source : Nat)
  | priorMigration (req : StartRequest) (source reserved : Nat)
  | reopen (migration : Nat)
  | ensure (req : StartRequest) (source : Nat) (reserved : Option Nat)
  | createBinding (req : StartRequest) (source : Nat)
  /-- The lookup after a binding could not be created. -/
  | lookupAgain (name : String)
  | beginMigration (source target : Nat)
  /-- `backfill`. -/
  | enterBackfill (migration : Nat)
  | embed (migration : Nat)
  /-- `verify`. -/
  | verify (migration : Nat)
  /-- `run_gate`. -/
  | enterGate (migration : Nat)
  | evaluate (migration : Nat)
  /-- `cutover`; the deadline is what `retention_seconds` gives. -/
  | cutoverGet (migration : Nat) (deadline : Int)
  | cutover (migration : Nat) (deadline : Int)
  /-- `rollback`. -/
  | rollbackGet (migration : Nat) (keepShadow : Bool)
  | rollbackBinding (migration : Nat) (keepShadow : Bool) (target : Nat)
  | rollback (migration : Nat) (keepShadow : Bool) (collection : Option String)
  /-- `abort`. -/
  | abortGet (migration : Nat) (purgeShadow : Bool)
  | abortBinding (migration : Nat) (purgeShadow : Bool) (target : Nat)
  | abandon (migration : Nat) (purgeShadow : Bool) (collection : Option String)
  /-- `reclaim_expired`. -/
  | listReclaimable (now : Int) (deleteCollections : Bool)
  | retire (deleteCollections : Bool) (bindings : List Nat)
  /-- `delete_collection`, and the bindings still to be reclaimed. -/
  | delete (collection : String) (bindings : List Nat)
  | finished
  deriving DecidableEq

inductive Outcome where
  | done
  | raised
  deriving DecidableEq, Repr

namespace Task

/-- A target without a provider or a model, or the one that is served, is refused. -/
def refuses (req : StartRequest) (serving : Binding) : Bool :=
  req.target.provider = "" || req.target.model = "" || serving.identity = req.target

/-- What a call goes on to that reclaims these bindings. -/
def reclaiming (deleteCollections : Bool) : List Nat → Task
  | [] => finished
  | bindings => retire deleteCollections bindings

/-- What a call goes on to that deletes a collection if it is told to and knows one. -/
def purging (purge : Bool) : Option String → Task
  | some collection => if purge then delete collection [] else finished
  | none => finished

/-- After `get_migration_by_target_binding`.  A migration that has failed is resumed or
    refused with nothing written; one that was rolled back is reopened; a binding without
    a migration is adopted. -/
def afterPrior (req : StartRequest) (source reserved : Nat) : Option (Migration × Nat) → Task
  | none => ensure req source (some reserved)
  | some (prior, migration) => if prior.state = .rolledBack then reopen migration else finished

/-- The step at hand comes off, `none` when it raises by its own checks. -/
def proceed (naming : Naming) (s : Store) : Task → Option (Store × Task)
  | getServing req =>
      match s.getServingBinding with
      | some (serving, source) =>
          if refuses req serving then none else some (s, probe req source)
      | none => if req.dataset.collectionName = "" then none else some (s, registerServing req)
  | registerServing req =>
      match s.registerServingBinding req.dataset with
      | some (s', serving, source) =>
          some (s', if refuses req serving then finished else probe req source)
      | none => none
  | probe req source =>
      match s.bindings[source]? with
      | some serving =>
          if serving.collectionName ++ "_summary" ∈ s.collections ∨
              serving.collectionName ++ "_sections" ∈ s.collections then none
          else some (s, lookup req source)
      | none => none
  | lookup req source =>
      match s.getBindingByCollectionName (naming.shadowName req) with
      | some (_, reserved) => some (s, priorMigration req source reserved)
      | none => some (s, ensure req source none)
  | priorMigration req source reserved =>
      some (s, afterPrior req source reserved (s.getMigrationByTargetBinding reserved))
  | reopen migration =>
      (s.reopenMigrationForRetry migration).map fun s' => (s', finished)
  | ensure req source reserved =>
      some (s.ensureCollection (naming.shadowName req),
        match reserved with
        | some target => beginMigration source target
        | none => createBinding req source)
  | createBinding req source =>
      (s.createBinding (naming.shadowName req) req.target).map fun created =>
        (created.1, beginMigration source created.2)
  | lookupAgain name =>
      some (s, if (s.getBindingByCollectionName name).isNone then delete name [] else finished)
  | beginMigration source target =>
      (s.beginMigration source target).map fun s' => (s', finished)
  | enterBackfill migration =>
      (s.transitionMigration migration .backfilling MigrationState.backfillEntry).map fun s' =>
        (s', embed migration)
  | embed _ => some (s, finished)
  | verify migration =>
      (s.transitionMigration migration .verified [.backfilling, .verified, .failed]).map fun s' =>
        (s', finished)
  | enterGate migration =>
      (s.transitionMigration migration .gating [.verified, .gateFailed, .gating]).map fun s' =>
        (s', evaluate migration)
  | evaluate migration => (s.recordGateVerdict migration true).map fun s' => (s', finished)
  | cutoverGet migration deadline =>
      (s.migrations[migration]?).map fun _ => (s, cutover migration deadline)
  | cutover migration deadline =>
      (s.cutoverMigration migration deadline).map fun s' => (s', finished)
  | rollbackGet migration keepShadow =>
      some (s,
        match s.migrations[migration]? with
        | some m => rollbackBinding migration keepShadow m.targetBinding
        | none => rollback migration keepShadow none)
  | rollbackBinding migration keepShadow target =>
      some (s, rollback migration keepShadow ((s.bindings[target]?).map Binding.collectionName))
  | rollback migration keepShadow collection =>
      (s.rollbackMigration migration keepShadow).map fun s' => (s', purging (!keepShadow) collection)
  | abortGet migration purgeShadow =>
      (s.migrations[migration]?).map fun m => (s, abortBinding migration purgeShadow m.targetBinding)
  | abortBinding migration purgeShadow target =>
      some (s, abandon migration purgeShadow ((s.bindings[target]?).map Binding.collectionName))
  | abandon migration purgeShadow collection =>
      (s.abandonMigration migration).map fun s' => (s', purging purgeShadow collection)
  | listReclaimable now deleteCollections =>
      some (s, reclaiming deleteCollections (s.listReclaimableBindings now))
  | retire _ [] => some (s, finished)
  | retire deleteCollections (binding :: bindings) =>
      match s.retireBinding binding with
      | some (s', collection) =>
          some (s',
            if deleteCollections then delete collection bindings
            else reclaiming deleteCollections bindings)
      | none => some (s, reclaiming deleteCollections bindings)
  | delete collection bindings => some (s.deleteCollection collection, reclaiming true bindings)
  | finished => none

/-- The step at hand raises. -/
def raise (naming : Naming) (s : Store) : Task → Store × Task
  | createBinding req _ => (s, lookupAgain (naming.shadowName req))
  | lookupAgain name => (s, delete name [])
  | embed migration =>
      ((s.transitionMigration migration .failed [.shadowBuild, .backfilling]).getD s, finished)
  | evaluate migration => ((s.recordGateVerdict migration false).getD s, finished)
  | delete _ bindings => (s, reclaiming true bindings)
  | _ => (s, finished)

def act (naming : Naming) (s : Store) (task : Task) : Outcome → Option (Store × Task)
  | .done => if task = finished then none else some ((task.proceed naming s).getD (task.raise naming s))
  | .raised => if task = finished then none else some (task.raise naming s)

/-- The calls as they come in; the row of the dataset has just been read. -/
def admits (s : Store) : Task → Bool
  | getServing req => decide (req.dataset = s.dataset ∧ req.target.dimension ≠ 0)
  | enterBackfill _ | verify _ | enterGate _ | cutoverGet _ _ | rollbackGet _ _ | abortGet _ _
  | listReclaimable _ _ => true
  | _ => false

end Task

/-- The calls on one dataset, in any order of their steps. -/
def service (naming : Naming) : Program Store Task Outcome Empty where
  act s task outcome := task.act naming s outcome
  environment _ event := event.elim
  admits s _ task := task.admits s
  enter s _ := s

end AiPlatform.Knowledge.Embedding
