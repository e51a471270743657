/-
  AiPlatform.Knowledge.EmbeddingVersions

  The collection bindings and embedding migrations of one dataset
  (`embedding_version_store.py`), with the row of the dataset and the physical
  collections.

  Rows are never deleted, so a binding and a migration are known by their places
  in their tables, which are in the order of creation.  A store call is one
  transaction; `none` is a call that raises.  What a call checks that is not kept
  here (the deletion flag, revisions, digests, action jobs) may make it raise at
  any time, which is a choice of its caller's step.  Names and identities are kept
  as `embedding_identity` gives them, stripped and with blanks for NULL.
-/

import Mathlib.Data.List.Basic
import Mathlib.Data.List.Sort

namespace AiPlatform.Knowledge.Embedding

/-! ## Rows -/

structure EmbeddingIdentity where
  provider : String
  model : String
  modelVersion : String
  dimension : Nat
  deriving DecidableEq, Repr

inductive BindingState where
  | shadow
  | serving
  | retained
  | retired
  deriving DecidableEq, Repr

structure Binding where
  collectionName : String
  identity : EmbeddingIdentity
  state : BindingState
  retainedUntil : Option Int
  deriving DecidableEq

inductive MigrationState where
  | shadowBuild
  | backfilling
  | verified
  | gating
  | gateFailed
  | ready
  | completed
  | rolledBack
  | failed
  | abandoned
  deriving DecidableEq, Repr

/-- The source binding is always set: no binding is ever deleted. -/
structure Migration where
  sourceBinding : Nat
  targetBinding : Nat
  state : MigrationState
  deriving DecidableEq

structure Dataset where
  collectionName : String
  identity : EmbeddingIdentity
  deriving DecidableEq

structure Store where
  dataset : Dataset
  bindings : List Binding
  migrations : List Migration
  /-- The collections Qdrant holds. -/
  collections : List String
  deriving DecidableEq

namespace MigrationState

/-- `LIVE_MIGRATION_STATES`. -/
def live : MigrationState → Bool
  | shadowBuild | backfilling | verified | gating | ready => true
  | _ => false

/-- `ABANDONABLE_MIGRATION_STATES`. -/
def abandonable (state : MigrationState) : Bool :=
  state.live || state = failed || state = gateFailed || state = rolledBack

/-- `BACKFILL_ENTRY_STATES`. -/
def backfillEntry : List MigrationState := [shadowBuild, backfilling, failed]

end MigrationState

/-! ## Reads -/

/-- `SELECT * .. ORDER BY created_at DESC LIMIT 1`, with the place of the row. -/
def newest {α : Type*} (p : α → Bool) (rows : List α) : Option (α × Nat) :=
  rows.zipIdx.reverse.find? fun row => p row.1

namespace Store

variable (s : Store)

def getServingBinding : Option (Binding × Nat) :=
  newest (fun b => decide (b.state = .serving)) s.bindings

/-- The binding that is not retired and reserves the name. -/
def getBindingByCollectionName (name : String) : Option (Binding × Nat) :=
  newest (fun b => decide (b.collectionName = name) && decide (b.state ≠ .retired)) s.bindings

def getMigrationByTargetBinding (binding : Nat) : Option (Migration × Nat) :=
  newest (fun m => decide (m.targetBinding = binding)) s.migrations

/-- The partial index on names: a binding that is not retired has taken the name. -/
def live (name : String) : Bool :=
  s.bindings.any fun b => decide (b.collectionName = name) && decide (b.state ≠ .retired)

/-- The partial index on migrations: one other than that at the place is live. -/
def liveBeside (migration : Nat) : Bool :=
  s.migrations.zipIdx.any fun row => decide (row.2 ≠ migration) && row.1.state.live

/-- `list_reclaimable_bindings`. -/
def listReclaimableBindings (now : Int) : List Nat :=
  let due := s.bindings.zipIdx.filter fun row =>
    decide (row.1.state = .retained) && row.1.retainedUntil.any fun deadline => decide (deadline ≤ now)
  (due.mergeSort fun a b => decide (a.1.retainedUntil.getD 0 ≤ b.1.retainedUntil.getD 0)).map Prod.snd

/-! ## Writes -/

def setBinding (binding : Nat) (f : Binding → Binding) : Store :=
  { s with bindings := s.bindings.modify binding f }

def setMigration (migration : Nat) (state : MigrationState) : Store :=
  { s with migrations := s.migrations.modify migration fun m => { m with state := state } }

/-- `create_binding`, with the place of the new row. -/
def createBinding (name : String) (identity : EmbeddingIdentity) : Option (Store × Nat) :=
  if s.live name then none
  else
    some ({ s with bindings := s.bindings ++ [⟨name, identity, .shadow, none⟩] }, s.bindings.length)

/-- `register_serving_binding_from_dataset_row`. -/
def registerServingBinding (row : Dataset) : Option (Store × (Binding × Nat)) :=
  if row.identity.dimension = 0 then none
  else
    match s.getServingBinding with
    | some serving => some (s, serving)
    | none =>
        if s.live row.collectionName then none
        else
          let binding : Binding := ⟨row.collectionName, row.identity, .serving, none⟩
          some ({ s with bindings := s.bindings ++ [binding] }, (binding, s.bindings.length))

/-- `begin_migration`. -/
def beginMigration (source target : Nat) : Option Store :=
  if s.migrations.any fun m => m.state.live then none
  else some { s with migrations := s.migrations ++ [⟨source, target, .shadowBuild⟩] }

/-- `transition_migration`.  A migration that is not in one of the states is left, and
    its caller raises as it does when another migration is live. -/
def transitionMigration (migration : Nat) (toState : MigrationState)
    (fromStates : List MigrationState) : Option Store :=
  match s.migrations[migration]? with
  | some m =>
      if m.state ∈ fromStates ∧ ¬ (toState.live = true ∧ s.liveBeside migration = true) then
        some (s.setMigration migration toState)
      else none
  | none => none

/-- `record_gate_verdict`. -/
def recordGateVerdict (migration : Nat) (passed : Bool) : Option Store :=
  s.transitionMigration migration (if passed then .ready else .gateFailed) [.gating]

/-- `cutover_migration`. -/
def cutoverMigration (migration : Nat) (deadline : Int) : Option Store :=
  match s.migrations[migration]? with
  | some m =>
      match s.bindings[m.sourceBinding]?, s.bindings[m.targetBinding]? with
      | some src, some tgt =>
          if m.state = .ready ∧ src.state = .serving ∧ tgt.state = .shadow ∧
              s.dataset.collectionName = src.collectionName then
            let s := { s with dataset := ⟨tgt.collectionName, tgt.identity⟩ }
            let s := s.setBinding m.sourceBinding fun b =>
              { b with state := .retained, retainedUntil := some deadline }
            let s := s.setBinding m.targetBinding fun b => { b with state := .serving }
            some (s.setMigration migration .completed)
          else none
      | _, _ => none
  | none => none

/-- `rollback_migration`. -/
def rollbackMigration (migration : Nat) (keepShadow : Bool) : Option Store :=
  match s.migrations[migration]? with
  | some m =>
      match s.bindings[m.sourceBinding]?, s.bindings[m.targetBinding]? with
      | some src, some tgt =>
          if m.state = .completed ∧ src.state = .retained ∧ tgt.state = .serving ∧
              s.dataset.collectionName = tgt.collectionName then
            let s := { s with dataset := ⟨src.collectionName, src.identity⟩ }
            let s := s.setBinding m.targetBinding fun b =>
              { b with state := if keepShadow then .shadow else .retired }
            let s := s.setBinding m.sourceBinding fun b =>
              { b with state := .serving, retainedUntil := none }
            some (s.setMigration migration .rolledBack)
          else none
      | _, _ => none
  | none => none

/-- `reopen_migration_for_retry`. -/
def reopenMigrationForRetry (migration : Nat) : Option Store :=
  match s.migrations[migration]? with
  | some m =>
      if (s.bindings[m.targetBinding]?).any fun tgt => decide (tgt.state = .shadow) then
        s.transitionMigration migration .backfilling [.rolledBack]
      else none
  | none => none

/-- `abandon_migration`: the target is retired if it is a shadow. -/
def abandonMigration (migration : Nat) : Option Store :=
  match s.migrations[migration]? with
  | some m =>
      if m.state.abandonable then
        let s := s.setBinding m.targetBinding fun b =>
          if b.state = .shadow then { b with state := .retired } else b
        some (s.setMigration migration .abandoned)
      else none
  | none => none

/-- `retire_binding`, with the name of the row that was retained. -/
def retireBinding (binding : Nat) : Option (Store × String) :=
  match s.bindings[binding]? with
  | some b =>
      if b.state = .retained then
        some (s.setBinding binding fun b => { b with state := .retired }, b.collectionName)
      else none
  | none => none

/-- `ensure_collection`. -/
def ensureCollection (name : String) : Store :=
  if name ∈ s.collections then s else { s with collections := name :: s.collections }

/-- `delete_collection`. -/
def deleteCollection (name : String) : Store :=
  { s with collections := s.collections.filter fun other => decide (other ≠ name) }

end Store

end AiPlatform.Knowledge.Embedding
