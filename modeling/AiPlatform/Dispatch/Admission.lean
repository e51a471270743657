/-
  AiPlatform.Dispatch.Admission

  The admission controller of a gateway (`CapacityAdmissionController` of
  `admission.py`) as tasks over its counters and over Redis.

  A task acquires a lease and later releases it.  What it does between two awaits
  is one step, and so is what it does under the lock of a condition.  At an await it
  may be cancelled; a call to Redis is run by the server in one step and answered in
  a later one, or it raises, and then the server may have run it or not.  Clean-up
  runs in tasks of its own, so a cancellation waits for it.
-/

import AiPlatform.Lib.Pool
import AiPlatform.Dispatch.AdmissionWindow

namespace AiPlatform.Dispatch

open Transition Redis

/-! ## Budgets and limits -/

structure CapacityBudget where
  key : String
  limit : Int
  queueMax : Int
  enforced : Bool
  shared : Bool
  deriving DecidableEq

/-- `ceilShare` is `math.ceil(limit * per_tenant_default_share)`; `limits` and
    `tenantLimits` are what the limits are fixed to. -/
structure Controller where
  clusterEpoch : String
  leaseTtl : LeaseTtl
  redis : Bool
  loadShedder : Bool
  perTenantLimits : String → Option Int
  ceilShare : Int → Int
  limits : String → Int
  tenantLimits : String → Int

/-- `_tenant_local_key` -/
def tenantLocalKey (tenantId budgetKey : String) : String := "tenant:" ++ (tenantId ++ (":" ++ budgetKey))

/-- `_tenant_limit_for` -/
def Controller.tenantLimitFor (controller : Controller) (budget : CapacityBudget) (tenantId : String) : Int :=
  match controller.perTenantLimits tenantId with
  | some limit => max limit 1
  | none =>
      match controller.perTenantLimits (tenantLocalKey tenantId budget.key) with
      | some limit => max limit 1
      | none => max (controller.ceilShare budget.limit) 1

/-- The keys of the lease in Redis. -/
def Controller.leaseKeys (controller : Controller) (budget : CapacityBudget) (tenantId : String) : LeaseKeys where
  shared := redisKey controller.clusterEpoch budget.key
  tenant := tenantRedisKey controller.clusterEpoch tenantId budget.key
  distinct := redisKey_ne_tenantRedisKey

/-! ## Tasks -/

structure AcquireRequest where
  budgets : List CapacityBudget
  tenantId : String
  allowDegradedOpen : Bool
  deriving DecidableEq

def AcquireRequest.enforcedBudgets (request : AcquireRequest) : List CapacityBudget :=
  request.budgets.filter (·.enforced)

/-- `acquired_local`, `acquired_tenant` and `acquired_shared`, the newest first. -/
structure Holding where
  budgets : List CapacityBudget
  tenants : List String
  pairs : List (LeaseKeys × String)
  deriving DecidableEq

/-- Why the pair of a lease is released while it is acquired. -/
inductive Unpairing where
  | rejected
  | cancelled
  | raised
  deriving DecidableEq

/-- Where a task is; `todo` are the budgets after the one at hand. -/
inductive Place where
  | starting
  | entering (todo : List CapacityBudget)
  | queued (budget : CapacityBudget) (todo : List CapacityBudget)
  | sharing (budget : CapacityBudget) (todo : List CapacityBudget)
  | tenantLocal (budget : CapacityBudget) (todo : List CapacityBudget)
  | evaluating (budget : CapacityBudget) (todo : List CapacityBudget) (member : String)
      (counts : Option (Int × Int)) (cancelled : Bool)
  | unpairing (budget : CapacityBudget) (todo : List CapacityBudget) (member : String)
      (reason : Unpairing)
  | cleaning (failed : Bool)
  | live
  | ended (failed : Bool)
  deriving DecidableEq

/-- `drawn` are the members the task has made for its leases in Redis. -/
structure AdmissionTask where
  request : AcquireRequest
  held : Holding
  drawn : List String
  place : Place
  deriving DecidableEq

def AdmissionTask.new (request : AcquireRequest) : AdmissionTask := ⟨request, ⟨[], [], []⟩, [], .starting⟩

/-- The counters of the process, and Redis with the members that this gateway and the
    others have made. -/
structure Admission where
  inflight : String → Nat
  queueDepth : String → Nat
  tenantInflight : String → Nat
  db : CapacityDb
  now : Nat
  members : List String
  foreign : List String

/-- What happens to a task at its await. -/
inductive Happening where
  | proceed
  | draw (member : String)
  | run
  | answer
  | raise
  | timeout
  | shed
  | cancel
  | release

namespace Admission

variable (controller : Controller) (s : Admission) (task : AdmissionTask)

/-- The task goes to clean up what it holds: it raises. -/
def fail : AdmissionTask := { task with place := .cleaning true }

/-- The local budget is taken. -/
def take (budget : CapacityBudget) (todo : List CapacityBudget) : Admission × AdmissionTask :=
  ({ s with inflight := Function.update s.inflight budget.key (s.inflight budget.key + 1) },
    { task with
      held := { task.held with budgets := budget :: task.held.budgets }
      place := .sharing budget todo })

/-- The critical section of `_acquire_local`. -/
def acquireLocal (budget : CapacityBudget) (todo : List CapacityBudget) : Admission × AdmissionTask :=
  if (s.inflight budget.key : Int) < max budget.limit 1 then s.take task budget todo
  else if budget.queueMax ≤ 0 ∨ budget.queueMax ≤ s.queueDepth budget.key then (s, fail task)
  else
    ({ s with queueDepth := Function.update s.queueDepth budget.key (s.queueDepth budget.key + 1) },
      { task with place := .queued budget todo })

/-- The `finally` of the queue in `_acquire_local`. -/
def leaveQueue (budget : CapacityBudget) : Admission :=
  { s with queueDepth := Function.update s.queueDepth budget.key (s.queueDepth budget.key - 1) }

/-- `_acquire_tenant_local` -/
def acquireTenantLocal (budget : CapacityBudget) (todo : List CapacityBudget) : Admission × AdmissionTask :=
  let key := tenantLocalKey task.request.tenantId budget.key
  if controller.tenantLimitFor budget task.request.tenantId ≤ s.tenantInflight key then (s, fail task)
  else
    ({ s with tenantInflight := Function.update s.tenantInflight key (s.tenantInflight key + 1) },
      { task with held := { task.held with tenants := key :: task.held.tenants }, place := .entering todo })

/-- The server runs `CAPACITY_ACQUIRE_PAIR_LUA`. -/
def runAcquire (budget : CapacityBudget) (member : String) : (Int × Int) × Admission :=
  let (counts, db) := acquirePair s.now (s.now + controller.leaseTtl) member controller.leaseTtl
    (controller.leaseKeys budget task.request.tenantId) budget.limit
    (controller.tenantLimitFor budget task.request.tenantId) s.db
  (counts, { s with db := db })

/-- The server runs `CAPACITY_RELEASE_LUA`. -/
def runRelease (keys : LeaseKeys) (member : String) : Admission :=
  { s with db := (Dispatch.release s.now member keys s.db).2 }

/-- `_acquire_shared_and_tenant` raises an exception that is not a rejection. -/
def degraded (budget : CapacityBudget) (todo : List CapacityBudget) : AdmissionTask :=
  if task.request.allowDegradedOpen then { task with place := .tenantLocal budget todo } else fail task

/-- `_acquire_shared_and_tenant` with the counts of the script. -/
def settle (budget : CapacityBudget) (todo : List CapacityBudget) (member : String) (counts : Int × Int) :
    AdmissionTask :=
  if budget.limit ≤ counts.1 then fail task
  else if controller.tenantLimitFor budget task.request.tenantId ≤ counts.2 then
    { task with place := .unpairing budget todo member .rejected }
  else
    { task with
      held := { task.held with
        pairs := (controller.leaseKeys budget task.request.tenantId, member) :: task.held.pairs }
      place := .entering todo }

/-- After the release of the pair. -/
def unpaired (budget : CapacityBudget) (todo : List CapacityBudget) : Unpairing → AdmissionTask
  | .raised => degraded task budget todo
  | .rejected | .cancelled => fail task

/-- One turn of `_release_many`; the release of a pair may raise, which is only logged. -/
def releaseOne (failed : Bool) (raises : Bool) : Option (Admission × AdmissionTask) :=
  match task.held with
  | ⟨budgets, key :: tenants, pairs⟩ =>
      if raises then none
      else
        some ({ s with tenantInflight := Function.update s.tenantInflight key (s.tenantInflight key - 1) },
          { task with held := ⟨budgets, tenants, pairs⟩ })
  | ⟨budgets, [], (keys, member) :: pairs⟩ =>
      some (if raises then s else s.runRelease keys member, { task with held := ⟨budgets, [], pairs⟩ })
  | ⟨budget :: budgets, [], []⟩ =>
      if raises then none
      else
        some ({ s with inflight := Function.update s.inflight budget.key (s.inflight budget.key - 1) },
          { task with held := ⟨budgets, [], []⟩ })
  | ⟨[], [], []⟩ => if raises then none else some (s, { task with place := .ended failed })

def act : Happening → Option (Admission × AdmissionTask)
  | .shed =>
      match task.place with
      | .starting => if controller.loadShedder then some (s, fail task) else none
      | _ => none
  | .draw member =>
      match task.place with
      | .sharing budget todo =>
          if (controller.redis && budget.shared) = true ∧ member ∉ s.members ∧ member ∉ s.foreign then
            some ({ s with members := member :: s.members },
              { task with
                drawn := member :: task.drawn
                place := .evaluating budget todo member none false })
          else none
      | _ => none
  | .proceed =>
      match task.place with
      | .starting => some (s, { task with place := .entering task.request.enforcedBudgets })
      | .entering [] => some (s, { task with place := .live })
      | .entering (budget :: todo) => some (s.acquireLocal task budget todo)
      | .queued budget todo =>
          if (s.inflight budget.key : Int) < max budget.limit 1 then
            some ((s.leaveQueue budget).take task budget todo)
          else some (s, task)
      | .sharing budget todo =>
          if (controller.redis && budget.shared) = true then none
          else some (s, { task with place := .tenantLocal budget todo })
      | .tenantLocal budget todo => some (s.acquireTenantLocal controller task budget todo)
      | .unpairing budget todo member reason =>
          some (s.runRelease (controller.leaseKeys budget task.request.tenantId) member,
            unpaired task budget todo reason)
      | .cleaning failed => s.releaseOne task failed false
      | _ => none
  | .run =>
      match task.place with
      | .evaluating budget todo member none cancelled =>
          let (counts, s) := s.runAcquire controller task budget member
          some (s, { task with place := .evaluating budget todo member (some counts) cancelled })
      | _ => none
  | .answer =>
      match task.place with
      | .evaluating budget todo member (some counts) false =>
          some (s, settle controller task budget todo member counts)
      | .evaluating budget todo member (some _) true =>
          some (s, { task with place := .unpairing budget todo member .cancelled })
      | _ => none
  | .raise =>
      match task.place with
      | .evaluating budget todo _ _ false => some (s, degraded task budget todo)
      | .evaluating budget todo member _ true =>
          some (s, { task with place := .unpairing budget todo member .raised })
      | .unpairing budget todo _ reason => some (s, unpaired task budget todo reason)
      | .cleaning failed => s.releaseOne task failed true
      | _ => none
  | .timeout =>
      match task.place with
      | .queued budget _ => some (s.leaveQueue budget, fail task)
      | _ => none
  | .cancel =>
      match task.place with
      | .entering (_ :: _) => some (s, fail task)
      | .queued budget _ => some (s.leaveQueue budget, fail task)
      | .tenantLocal _ _ => some (s, fail task)
      | .evaluating budget todo member counts _ =>
          some (s, { task with place := .evaluating budget todo member counts true })
      | .unpairing _ _ _ .rejected => some (s, fail task)
      | .unpairing budget todo member _ =>
          some (s, { task with place := .unpairing budget todo member .cancelled })
      | .cleaning _ => some (s, task)
      | _ => none
  | .release =>
      match task.place with
      | .live => some (s, { task with place := .cleaning false })
      | .cleaning false | .ended false => some (s, task)
      | _ => none

end Admission

/-- The clock goes on, other gateways run scripts for members of their own, and the renew
    loops run theirs. -/
inductive AdmissionEvent where
  | tick (ticks : Nat)
  | script (limits : String → Nat) (call : ScriptCall)

def Admission.environment (s : Admission) : AdmissionEvent → Option Admission
  | .tick ticks => some { s with now := s.now + ticks }
  | .script limits call =>
      if call.now = s.now ∧ (call.script = .renew ∨ call.member ∉ s.members) then
        some { s with
          db := (SharedStore.run limits call s.db).2
          foreign := if call.script = .renew then s.foreign else call.member :: s.foreign }
      else none

/-- The limits of the request are the fixed ones. -/
def Controller.fixes (controller : Controller) (request : AcquireRequest) : Prop :=
  ∀ budget ∈ request.enforcedBudgets, budget.limit = controller.limits budget.key ∧
    controller.tenantLimitFor budget request.tenantId =
      controller.tenantLimits (tenantLocalKey request.tenantId budget.key)

instance (controller : Controller) (request : AcquireRequest) : Decidable (controller.fixes request) :=
  inferInstanceAs (Decidable (∀ _ ∈ _, _ ∧ _))

/-- Requests with the fixed limits come at any time. -/
def admission (controller : Controller) : Program Admission AdmissionTask Happening AdmissionEvent where
  act := Admission.act controller
  environment := Admission.environment
  admits _ _ task := decide (task = .new task.request) && decide (controller.fixes task.request)
  enter s _ := s

end AiPlatform.Dispatch
