/-
  AiPlatform.Dispatch.AdmissionSteps

  What one step of a task of the admission controller can do: `act_effect` says it
  once, with what the task has yet to take and the pairs it may have in Redis; the
  last part says what a step does to the members under a key of Redis.
-/

import AiPlatform.Lib.Holders
import AiPlatform.Dispatch.Admission

namespace AiPlatform.Dispatch

open Transition Redis

/-! ## What a task holds -/

namespace Place

/-- The budgets a task in this place has yet to take, `none` when it takes no more. -/
def ahead (enforced : List CapacityBudget) : Place → Option (List CapacityBudget)
  | starting => some enforced
  | entering todo => some todo
  | queued budget todo => some (budget :: todo)
  | sharing _ todo | tenantLocal _ todo | evaluating _ todo _ _ _ | unpairing _ todo _ _ => some todo
  | live => some []
  | cleaning _ | ended _ => none

/-- The budgets whose tenant share it has yet to take. -/
def tenantAhead (enforced : List CapacityBudget) : Place → List CapacityBudget
  | starting => enforced
  | entering todo => todo
  | queued budget todo | sharing budget todo | tenantLocal budget todo
  | evaluating budget todo _ _ _ | unpairing budget todo _ _ => budget :: todo
  | live | cleaning _ | ended _ => []

/-- The member it is about to hold or to give back. -/
def member : Place → Option String
  | evaluating _ _ member _ _ | unpairing _ _ member _ => some member
  | _ => none

/-- The lease of the task has been released. -/
def released : Place → Bool
  | cleaning false | ended false => true
  | _ => false

end Place

namespace AdmissionTask

variable (controller : Controller) (task : AdmissionTask)

/-- The keys of the local budgets it holds. -/
def budgetKeys : List String := task.held.budgets.map CapacityBudget.key

/-- The keys of the tenant shares it holds in the process. -/
def tenantKeys : List String := task.held.tenants

/-- The key of the budget it waits for in a queue. -/
def queueKeys : List String :=
  match task.place with
  | .queued budget _ => [budget.key]
  | _ => []

/-- The pair a task in its place may have in Redis beside those it holds: one the script
    has admitted, or one that is being released. -/
def pending : List (LeaseKeys × String) :=
  match task.place with
  | .evaluating budget _ member (some counts) _ =>
      if budget.limit ≤ counts.1 ∨ controller.tenantLimitFor budget task.request.tenantId ≤ counts.2 then []
      else [(controller.leaseKeys budget task.request.tenantId, member)]
  | .unpairing _ _ _ .rejected => []
  | .unpairing budget _ member _ => [(controller.leaseKeys budget task.request.tenantId, member)]
  | _ => []

def claims : List (LeaseKeys × String) := task.held.pairs ++ task.pending controller

/-- The pairs that a call that raises now leaves to expire. -/
def atRisk : List (LeaseKeys × String) :=
  match task.place with
  | .evaluating _ _ _ _ false | .unpairing _ _ _ _ => task.pending controller
  | .cleaning true => task.held.pairs.head?.toList
  | _ => []

end AdmissionTask

/-- The member is under the key in Redis. -/
def Admission.Under (s : Admission) (member key : String) : Prop :=
  ∃ score, (member, score) ∈ (s.db.read s.now key).entries

instance (s : Admission) (member key : String) : Decidable (s.Under member key) :=
  decidable_of_iff (member ∈ (s.db.read s.now key).entries.map Prod.fst) (by simp [Admission.Under])

/-! ## What one step can do -/

/-- Only queues differ. -/
structure SameCounts (s s' : Admission) : Prop where
  inflight : s'.inflight = s.inflight
  tenantInflight : s'.tenantInflight = s.tenantInflight
  db : s'.db = s.db
  now : s'.now = s.now
  members : s'.members = s.members
  foreign : s'.foreign = s.foreign

/-- The task goes to another place and takes nothing. -/
structure Moves (controller : Controller) (task task' : AdmissionTask) (raises : Bool) : Prop where
  request : task'.request = task.request
  held : task'.held = task.held
  drawn : task'.drawn = task.drawn
  ahead : task'.place.ahead task.request.enforcedBudgets = none ∨
    task'.place.ahead task.request.enforcedBudgets = task.place.ahead task.request.enforcedBudgets
  tenantAhead : List.Sublist (task'.place.tenantAhead task.request.enforcedBudgets)
    (task.place.tenantAhead task.request.enforcedBudgets)
  member : ∀ m ∈ task'.place.member, m ∈ task.place.member
  released : task.place.released = true → task'.place.released = true
  ended : ∀ failed, task'.place = .ended failed → task.place = .ended failed
  pending : ∀ pair ∈ task.pending controller,
    pair ∈ task'.pending controller ∨ raises = true ∧ pair ∈ task.atRisk controller

/-- The task comes into a queue, leaves one, or neither. -/
abbrev QueueStep (s : Admission) (task : AdmissionTask) (s' : Admission) (task' : AdmissionTask) : Prop :=
  Handover (fun key => s.queueDepth key + 1) s.queueDepth task.queueKeys s'.queueDepth task'.queueKeys

variable {controller : Controller} {s s' : Admission} {task task' : AdmissionTask} {happening : Happening}

/-- Everything a step of a task can do. -/
inductive AdmissionEffect (controller : Controller) (s : Admission) (task : AdmissionTask)
    (raises : Bool) (s' : Admission) (task' : AdmissionTask) : Prop
  | moves (shared : SameCounts s s') (queue : QueueStep s task s' task') (place : Moves controller task task' raises)
  | takes (budget : CapacityBudget) (todo : List CapacityBudget)
      (ahead : task.place.ahead task.request.enforcedBudgets = some (budget :: todo))
      (tenantAhead : task.place.tenantAhead task.request.enforcedBudgets = budget :: todo)
      (pending : task.pending controller = []) (place : task.place.released = false)
      (room : (s.inflight budget.key : Int) < max budget.limit 1)
      (queue : QueueStep s task s' task')
      (shared : ∃ queueDepth, s' = { s with
        inflight := Function.update s.inflight budget.key (s.inflight budget.key + 1)
        queueDepth := queueDepth })
      (held : task' = { task with
        held := { task.held with budgets := budget :: task.held.budgets }
        place := .sharing budget todo })
  | takesTenant (budget : CapacityBudget) (todo : List CapacityBudget)
      (place : task.place = .tenantLocal budget todo)
      (room : (s.tenantInflight (tenantLocalKey task.request.tenantId budget.key) : Int) <
        controller.tenantLimitFor budget task.request.tenantId)
      (shared : s' = { s with
        tenantInflight := Function.update s.tenantInflight (tenantLocalKey task.request.tenantId budget.key)
          (s.tenantInflight (tenantLocalKey task.request.tenantId budget.key) + 1) })
      (held : task' = { task with
        held := { task.held with
          tenants := tenantLocalKey task.request.tenantId budget.key :: task.held.tenants }
        place := .entering todo })
  | draws (budget : CapacityBudget) (todo : List CapacityBudget) (member : String)
      (place : task.place = .sharing budget todo) (fresh : member ∉ s.members ∧ member ∉ s.foreign)
      (shared : s' = { s with members := member :: s.members })
      (held : task' = { task with
        drawn := member :: task.drawn, place := .evaluating budget todo member none false })
  | runs (budget : CapacityBudget) (todo : List CapacityBudget) (member : String) (cancelled : Bool)
      (place : task.place = .evaluating budget todo member none cancelled)
      (shared : s' = (s.runAcquire controller task budget member).2)
      (held : task' = { task with
        place := .evaluating budget todo member (some (s.runAcquire controller task budget member).1) cancelled })
  | pairs (budget : CapacityBudget) (todo : List CapacityBudget) (member : String) (counts : Int × Int)
      (place : task.place = .evaluating budget todo member (some counts) false)
      (shared : s' = s)
      (held : task' = { task with
        held := { task.held with
          pairs := (controller.leaseKeys budget task.request.tenantId, member) :: task.held.pairs }
        place := .entering todo })
  | unpairs (budget : CapacityBudget) (todo : List CapacityBudget) (member : String) (reason : Unpairing)
      (place : task.place = .unpairing budget todo member reason)
      (shared : s' = s.runRelease (controller.leaseKeys budget task.request.tenantId) member)
      (held : task' = Admission.unpaired task budget todo reason)
  | givesTenant (failed : Bool) (key : String) (tenants : List String)
      (place : task.place = .cleaning failed) (holds : task.held.tenants = key :: tenants)
      (shared : s' = { s with
        tenantInflight := Function.update s.tenantInflight key (s.tenantInflight key - 1) })
      (held : task' = { task with held := { task.held with tenants := tenants } })
  | givesPair (failed : Bool) (keys : LeaseKeys) (member : String) (pairs : List (LeaseKeys × String))
      (place : task.place = .cleaning failed) (holds : task.held.pairs = (keys, member) :: pairs)
      (shared : s' = s.runRelease keys member ∨ s' = s ∧ raises = true)
      (held : task' = { task with held := { task.held with pairs := pairs } })
  | givesBudget (failed : Bool) (budget : CapacityBudget) (budgets : List CapacityBudget)
      (place : task.place = .cleaning failed) (holds : task.held.budgets = budget :: budgets)
      (shared : s' = { s with
        inflight := Function.update s.inflight budget.key (s.inflight budget.key - 1) })
      (held : task' = { task with held := { task.held with budgets := budgets } })
  | ends (failed : Bool) (place : task.place = .cleaning failed) (shared : s' = s)
      (empty : task.held = ⟨[], [], []⟩) (held : task' = { task with place := .ended failed })

def Happening.raises : Happening → Bool
  | raise => true
  | _ => false

theorem releaseOne_effect {failed raises : Bool} (hplace : task.place = .cleaning failed)
    (h : s.releaseOne task failed raises = some (s', task')) :
    AdmissionEffect controller s task raises s' task' := by
  unfold Admission.releaseOne at h
  split at h
  · rename_i budgets key tenants pairs hheld
    cases raises with
    | true => cases h
    | false =>
      cases h
      exact .givesTenant failed key tenants hplace (by rw [hheld]) rfl (by rw [hheld])
  · rename_i budgets keys member pairs hheld
    cases h
    refine .givesPair failed keys member pairs hplace (by rw [hheld]) ?_ (by rw [hheld])
    cases raises with
    | true => exact .inr ⟨rfl, rfl⟩
    | false => exact .inl rfl
  · rename_i budget budgets hheld
    cases raises with
    | true => cases h
    | false =>
      cases h
      exact .givesBudget failed budget budgets hplace (by rw [hheld]) rfl (by rw [hheld])
  · rename_i hheld
    cases raises with
    | true => cases h
    | false =>
      cases h
      exact .ends failed hplace rfl hheld rfl

theorem SameCounts.rfl : SameCounts s s := ⟨Eq.refl _, Eq.refl _, Eq.refl _, Eq.refl _, Eq.refl _, Eq.refl _⟩

theorem sameCounts_leaveQueue {budget : CapacityBudget} : SameCounts s (s.leaveQueue budget) :=
  ⟨rfl, rfl, rfl, rfl, rfl, rfl⟩

theorem queueStep_leaveQueue {budget : CapacityBudget} {todo : List CapacityBudget}
    (hplace : task.place = .queued budget todo) (hqueue : task'.queueKeys = []) :
    QueueStep s task (s.leaveQueue budget) task' := by
  refine .gives budget.key (by rw [hqueue]; exact List.not_mem_nil) rfl ?_
  rw [hqueue, AdmissionTask.queueKeys, hplace]

theorem queueKeys_degraded {budget : CapacityBudget} {todo : List CapacityBudget} :
    (Admission.degraded task budget todo).queueKeys = [] := by
  unfold Admission.degraded
  split <;> rfl

theorem queueKeys_unpaired {budget : CapacityBudget} {todo : List CapacityBudget} {reason : Unpairing} :
    (Admission.unpaired task budget todo reason).queueKeys = [] := by
  cases reason with
  | raised => exact queueKeys_degraded
  | rejected => rfl
  | cancelled => rfl

/-- The task raises; what it may have in Redis is what is at risk. -/
theorem moves_fail {raises : Bool} (hplace : task.place.released = false)
    (hpending : ∀ pair ∈ task.pending controller, raises = true ∧ pair ∈ task.atRisk controller) :
    Moves controller task (Admission.fail task) raises where
  request := rfl
  held := rfl
  drawn := rfl
  ahead := .inl rfl
  tenantAhead := List.nil_sublist _
  member := nofun
  released hreleased := by rw [hplace] at hreleased; cases hreleased
  ended := nofun
  pending pair hmem := .inr (hpending pair hmem)

theorem moves_degraded {raises : Bool} {budget : CapacityBudget} {todo : List CapacityBudget}
    (hplace : task.place.released = false)
    (hahead : task.place.ahead task.request.enforcedBudgets = some todo)
    (htenant : task.place.tenantAhead task.request.enforcedBudgets = budget :: todo)
    (hpending : ∀ pair ∈ task.pending controller, raises = true ∧ pair ∈ task.atRisk controller) :
    Moves controller task (Admission.degraded task budget todo) raises := by
  unfold Admission.degraded
  split
  · exact
      { request := rfl
        held := rfl
        drawn := rfl
        ahead := .inr hahead.symm
        tenantAhead := htenant ▸ List.Sublist.refl _
        member := nofun
        released := fun hreleased => by rw [hplace] at hreleased; cases hreleased
        ended := nofun
        pending := fun pair hmem => .inr (hpending pair hmem) }
  · exact moves_fail hplace hpending

/-- After a call to give a pair back, which may have raised. -/
theorem moves_unpaired {budget : CapacityBudget} {todo : List CapacityBudget} {member : String}
    {reason : Unpairing} (hplace : task.place = .unpairing budget todo member reason) :
    Moves controller task (Admission.unpaired task budget todo reason) true := by
  have hreleased : task.place.released = false := by rw [hplace]; rfl
  have hrisk : ∀ pair ∈ task.pending controller, true = true ∧ pair ∈ task.atRisk controller := by
    rw [AdmissionTask.atRisk, hplace]
    exact fun pair hmem => ⟨rfl, hmem⟩
  cases reason with
  | raised => exact moves_degraded hreleased (by rw [hplace]; rfl) (by rw [hplace]; rfl) hrisk
  | rejected => exact moves_fail hreleased hrisk
  | cancelled => exact moves_fail hreleased hrisk

/-- The task goes on to a place with the same things ahead. -/
theorem moves_on {raises : Bool} {place : Place} (hreleased : task.place.released = true → place.released = true)
    (hahead : place.ahead task.request.enforcedBudgets = task.place.ahead task.request.enforcedBudgets)
    (htenant : place.tenantAhead task.request.enforcedBudgets =
      task.place.tenantAhead task.request.enforcedBudgets)
    (hmember : ∀ m ∈ place.member, m ∈ task.place.member)
    (hended : ∀ failed, place = .ended failed → task.place = .ended failed)
    (hpending : ∀ pair ∈ task.pending controller,
      pair ∈ AdmissionTask.pending controller { task with place := place }) :
    Moves controller task { task with place := place } raises where
  request := rfl
  held := rfl
  drawn := rfl
  ahead := .inr hahead
  tenantAhead := htenant ▸ List.Sublist.refl _
  member := hmember
  released := hreleased
  ended := hended
  pending pair hmem := .inl (hpending pair hmem)

theorem acquireLocal_effect {budget : CapacityBudget} {todo : List CapacityBudget}
    (hplace : task.place = .entering (budget :: todo))
    (h : s.acquireLocal task budget todo = (s', task')) :
    AdmissionEffect controller s task false s' task' := by
  have hpending : task.pending controller = [] := by rw [AdmissionTask.pending, hplace]
  have hreleased : task.place.released = false := by rw [hplace]; rfl
  have hqueue : task.queueKeys = [] := by rw [AdmissionTask.queueKeys, hplace]
  unfold Admission.acquireLocal at h
  split at h
  · rename_i hroom
    cases h
    exact .takes budget todo (by rw [hplace]; rfl) (by rw [hplace]; rfl) hpending hreleased hroom
      (.keeps rfl hqueue.symm) ⟨s.queueDepth, rfl⟩ rfl
  · split at h
    · cases h
      exact .moves .rfl (.keeps rfl hqueue.symm) (moves_fail hreleased (by rw [hpending]; nofun))
    · cases h
      have henters : QueueStep s task
          { s with queueDepth := Function.update s.queueDepth budget.key (s.queueDepth budget.key + 1) }
          { task with place := .queued budget todo } :=
        .takes budget.key (by rw [hqueue]; exact List.not_mem_nil) (Int.lt_succ _) rfl (by rw [hqueue]; rfl)
      refine .moves ⟨rfl, rfl, rfl, rfl, rfl, rfl⟩ henters (moves_on ?_ ?_ ?_ nofun nofun (by rw [hpending]; nofun))
      · exact fun hcontra => by rw [hreleased] at hcontra; cases hcontra
      · rw [hplace]; rfl
      · rw [hplace]; rfl

/-- A script that was run is given back, whatever its counts. -/
theorem pending_unpairing {budget : CapacityBudget} {todo : List CapacityBudget} {member : String}
    {counts : Option (Int × Int)} {cancelled : Bool} {reason : Unpairing} {pair : LeaseKeys × String}
    (hreason : (reason == .rejected) = false)
    (hmem : pair ∈ AdmissionTask.pending controller
      { task with place := .evaluating budget todo member counts cancelled }) :
    pair ∈ AdmissionTask.pending controller { task with place := .unpairing budget todo member reason } := by
  cases counts with
  | none => cases hmem
  | some counts =>
    simp only [AdmissionTask.pending] at hmem
    split at hmem
    · cases hmem
    · cases reason with
      | rejected => cases hreason
      | cancelled => exact hmem
      | raised => exact hmem

/-- The counts are acted on: rejected, rejected for the tenant, or the pair is held. -/
theorem settle_effect {budget : CapacityBudget} {todo : List CapacityBudget} {member : String}
    {counts : Int × Int} (hplace : task.place = .evaluating budget todo member (some counts) false) :
    AdmissionEffect controller s task false s (Admission.settle controller task budget todo member counts) := by
  have hreleased : task.place.released = false := by rw [hplace]; rfl
  have hqueue : task.queueKeys = [] := by rw [AdmissionTask.queueKeys, hplace]
  unfold Admission.settle
  split
  · rename_i hfull
    refine .moves .rfl (.keeps rfl hqueue.symm) (moves_fail hreleased ?_)
    rw [AdmissionTask.pending, hplace]
    simp [hfull]
  · split
    · rename_i hfull
      refine .moves .rfl (.keeps rfl hqueue.symm) (moves_on ?_ ?_ ?_ ?_ nofun ?_)
      · exact fun hcontra => by rw [hreleased] at hcontra; cases hcontra
      · rw [hplace]; rfl
      · rw [hplace]; rfl
      · rw [hplace]; exact fun _ hmem => hmem
      · rw [AdmissionTask.pending, hplace]
        simp [hfull]
    · exact .pairs budget todo member counts hplace rfl rfl

theorem Admission.act_effect (h : s.act controller task happening = some (s', task')) :
    AdmissionEffect controller s task happening.raises s' task' := by
  obtain ⟨request, held, drawn, place⟩ := task
  cases happening with
  | shed =>
    cases place with
    | starting =>
      simp only [Admission.act] at h
      split at h
      · cases h
        exact .moves .rfl (.keeps rfl rfl) (moves_fail rfl nofun)
      · cases h
    | _ => cases h
  | draw member =>
    cases place with
    | sharing budget todo =>
      simp only [Admission.act] at h
      split at h
      · rename_i hfresh
        cases h
        exact .draws budget todo member rfl hfresh.2 rfl rfl
      · cases h
    | _ => cases h
  | proceed =>
    cases place with
    | starting =>
      cases h
      exact .moves .rfl (.keeps rfl rfl) (moves_on nofun rfl rfl nofun nofun nofun)
    | entering todo =>
      cases todo with
      | nil =>
        cases h
        exact .moves .rfl (.keeps rfl rfl) (moves_on nofun rfl rfl nofun nofun nofun)
      | cons budget todo => exact acquireLocal_effect rfl (Option.some.inj h)
    | queued budget todo =>
      simp only [Admission.act] at h
      split at h
      · rename_i hroom
        cases h
        exact .takes budget todo rfl rfl rfl rfl hroom (queueStep_leaveQueue rfl rfl) ⟨_, rfl⟩ rfl
      · cases h
        exact .moves .rfl (.keeps rfl rfl) (moves_on nofun rfl rfl nofun nofun nofun)
    | sharing budget todo =>
      simp only [Admission.act] at h
      split at h
      · cases h
      · cases h
        exact .moves .rfl (.keeps rfl rfl) (moves_on nofun rfl rfl nofun nofun nofun)
    | tenantLocal budget todo =>
      simp only [Admission.act, Admission.acquireTenantLocal] at h
      split at h
      · cases h
        exact .moves .rfl (.keeps rfl rfl) (moves_fail rfl nofun)
      · rename_i hroom
        cases h
        exact .takesTenant budget todo rfl (not_le.mp hroom) rfl rfl
    | unpairing budget todo member reason =>
      cases h
      exact .unpairs budget todo member reason rfl rfl rfl
    | cleaning failed => exact releaseOne_effect rfl h
    | _ => cases h
  | run =>
    cases place with
    | evaluating budget todo member counts cancelled =>
      cases counts with
      | none =>
        cases h
        exact .runs budget todo member cancelled rfl rfl rfl
      | some counts => cases h
    | _ => cases h
  | answer =>
    cases place with
    | evaluating budget todo member counts cancelled =>
      cases counts with
      | none => cases cancelled <;> cases h
      | some counts =>
        cases cancelled with
        | false =>
          cases h
          exact settle_effect rfl
        | true =>
          cases h
          refine .moves .rfl (.keeps rfl rfl) (moves_on nofun rfl rfl (fun _ hmem => hmem) nofun fun pair hmem => ?_)
          exact pending_unpairing rfl hmem
    | _ => cases h
  | raise =>
    cases place with
    | evaluating budget todo member counts cancelled =>
      cases cancelled with
      | false =>
        cases h
        refine .moves .rfl (.keeps rfl queueKeys_degraded) (moves_degraded rfl rfl rfl fun pair hmem => ⟨rfl, hmem⟩)
      | true =>
        cases h
        refine .moves .rfl (.keeps rfl rfl) (moves_on nofun rfl rfl (fun _ hmem => hmem) nofun fun pair hmem => ?_)
        exact pending_unpairing rfl hmem
    | unpairing budget todo member reason =>
      cases h
      exact .moves .rfl (.keeps rfl queueKeys_unpaired) (moves_unpaired rfl)
    | cleaning failed => exact releaseOne_effect rfl h
    | _ => cases h
  | timeout =>
    cases place with
    | queued budget todo =>
      cases h
      exact .moves sameCounts_leaveQueue (queueStep_leaveQueue rfl rfl) (moves_fail rfl nofun)
    | _ => cases h
  | cancel =>
    cases place with
    | entering todo =>
      cases todo with
      | nil => cases h
      | cons budget todo =>
        cases h
        exact .moves .rfl (.keeps rfl rfl) (moves_fail rfl nofun)
    | queued budget todo =>
      cases h
      exact .moves sameCounts_leaveQueue (queueStep_leaveQueue rfl rfl) (moves_fail rfl nofun)
    | tenantLocal budget todo =>
      cases h
      exact .moves .rfl (.keeps rfl rfl) (moves_fail rfl nofun)
    | evaluating budget todo member counts cancelled =>
      cases h
      refine .moves .rfl (.keeps rfl rfl) (moves_on nofun rfl rfl (fun _ hmem => hmem) nofun fun pair hmem => ?_)
      cases counts <;> exact hmem
    | unpairing budget todo member reason =>
      cases reason with
      | rejected =>
        cases h
        exact .moves .rfl (.keeps rfl rfl) (moves_fail rfl nofun)
      | cancelled =>
        cases h
        exact .moves .rfl (.keeps rfl rfl) (moves_on nofun rfl rfl (fun _ hmem => hmem) nofun fun pair hmem => hmem)
      | raised =>
        cases h
        exact .moves .rfl (.keeps rfl rfl) (moves_on nofun rfl rfl (fun _ hmem => hmem) nofun fun pair hmem => hmem)
    | cleaning failed =>
      cases h
      exact .moves .rfl (.keeps rfl rfl) (moves_on id rfl rfl nofun (fun _ heq => heq) nofun)
    | _ => cases h
  | release =>
    cases place with
    | live =>
      cases h
      exact .moves .rfl (.keeps rfl rfl)
        { request := rfl
          held := rfl
          drawn := rfl
          ahead := .inl rfl
          tenantAhead := List.Sublist.refl _
          member := nofun
          released := nofun
          ended := nofun
          pending := nofun }
    | cleaning failed =>
      cases failed <;> cases h
      exact .moves .rfl (.keeps rfl rfl) (moves_on id rfl rfl nofun (fun _ heq => heq) nofun)
    | ended failed =>
      cases failed <;> cases h
      exact .moves .rfl (.keeps rfl rfl) (moves_on id rfl rfl nofun (fun _ heq => heq) nofun)
    | _ => cases h

/-- A lease that is released stays so. -/
theorem released_effect {raises : Bool} (heffect : AdmissionEffect controller s task raises s' task')
    (hreleased : task.place.released = true) : task'.place.released = true := by
  cases heffect with
  | moves hshared hqueue hplace => exact hplace.released hreleased
  | takes budget todo hahead htenant hpending hplace hroom hqueue hshared hheld =>
    rw [hplace] at hreleased
    cases hreleased
  | takesTenant budget todo hplace hroom hshared hheld => rw [hplace] at hreleased; cases hreleased
  | draws budget todo m hplace hfresh hshared hheld => rw [hplace] at hreleased; cases hreleased
  | runs budget todo m cancelled hplace hshared hheld => rw [hplace] at hreleased; cases hreleased
  | pairs budget todo m counts hplace hshared hheld => rw [hplace] at hreleased; cases hreleased
  | unpairs budget todo m reason hplace hshared hheld => rw [hplace] at hreleased; cases hreleased
  | givesTenant failed key tenants hplace hholds hshared hheld =>
    rw [hheld]
    exact hreleased
  | givesPair failed keys m pairs hplace hholds hshared hheld =>
    rw [hheld]
    exact hreleased
  | givesBudget failed budget budgets hplace hholds hshared hheld =>
    rw [hheld]
    exact hreleased
  | ends failed hplace hshared hempty hheld =>
    rw [hplace] at hreleased
    rw [hheld]
    cases failed with
    | false => rfl
    | true => cases hreleased

/-! ## Redis under a step -/

section Under

variable {member key m : String} {keys : LeaseKeys} {budget : CapacityBudget}

/-- The server gives a member back: it is under neither key, and nothing else comes. -/
theorem under_runRelease (h : (s.runRelease keys member).Under m key) :
    s.Under m key ∧ ¬ (m = member ∧ keys.holds key) := by
  obtain ⟨score, hmem⟩ := h
  obtain ⟨hsub, hgone⟩ := @read_release ⟨.release, s.now, ⟨1000, by decide⟩, member, keys⟩ s.db key _ _ rfl
  exact ⟨⟨score, hsub _ hmem⟩, fun ⟨heq, hholds⟩ => hgone hholds _ hmem heq⟩

/-- The server admits no member but the one at hand, and that only with room for it. -/
theorem under_runAcquire (h : (s.runAcquire controller task budget member).2.Under m key) :
    s.Under m key ∨ m = member ∧
      (controller.leaseKeys budget task.request.tenantId).holds key ∧
      ¬ budget.limit ≤ (s.runAcquire controller task budget member).1.1 ∧
      ¬ controller.tenantLimitFor budget task.request.tenantId ≤
        (s.runAcquire controller task budget member).1.2 := by
  obtain ⟨score, hmem⟩ := h
  unfold Admission.runAcquire at hmem ⊢
  cases hout : acquirePair s.now (s.now + controller.leaseTtl) member controller.leaseTtl
    (controller.leaseKeys budget task.request.tenantId) budget.limit
    (controller.tenantLimitFor budget task.request.tenantId) s.db with
  | mk counts db =>
    rw [hout] at hmem
    rcases read_acquirePair hout with hsub | ⟨hread, hkey, haccepted⟩
    · exact .inl ⟨score, hsub _ hmem⟩
    · simp only [hread] at hmem
      rcases SortedSet.mem_add.mp hmem with heq | ⟨hold, -⟩
      · cases heq
        exact .inr ⟨rfl, hkey.imp And.left And.left, haccepted⟩
      · exact .inl ⟨score, SortedSet.removeRange_subset _ hold⟩

/-- The surroundings add members of other gateways only. -/
theorem under_environment {event : AdmissionEvent} (hstep : s.environment event = some s')
    (h : s'.Under m key) : s.Under m key ∨ m ∉ s.members ∧ m ∈ s'.foreign := by
  obtain ⟨score, hmem⟩ := h
  cases event with
  | tick ticks =>
    cases hstep
    rcases @SortedSets.read_later _ _ _ _ _ s.db s.now (s.now + ticks) key (Nat.le_add_right _ _) with
      hread | hread
    · simp only [hread] at hmem
      exact .inl ⟨score, hmem⟩
    · simp only [hread] at hmem
      cases hmem
  | script limits call =>
    simp only [Admission.environment] at hstep
    split at hstep
    · rename_i hcall
      cases hstep
      obtain ⟨hnow, hmember⟩ := hcall
      have hentry : (m, score) ∈ ((SharedStore.run limits call s.db).2.read s.now key).entries := hmem
      obtain ⟨reply, db', hrun⟩ : ∃ reply db', SharedStore.run limits call s.db = (reply, db') :=
        ⟨_, _, rfl⟩
      have heffect := @run_effect limits call s.db key reply db' hrun
      rw [hrun] at hentry
      rw [hnow] at heffect
      generalize db'.read s.now key = post at heffect hentry
      cases heffect with
      | shrinks hsub => exact .inl ⟨score, hsub _ hentry⟩
      | adds hscript hroom hholds haccepted =>
        rcases SortedSet.mem_add.mp hentry with heq | ⟨hold, -⟩
        · cases heq
          refine .inr ⟨hmember.resolve_left (by rw [hscript]; decide), ?_⟩
          simp [hscript]
        · exact .inl ⟨score, SortedSet.removeRange_subset _ hold⟩
      | prolongs hscript hlive =>
        rcases SortedSet.mem_add.mp hentry with heq | ⟨hold, -⟩
        · cases heq
          obtain ⟨old, hold, -⟩ := isLive_iff.mp hlive
          exact .inl ⟨old, hold⟩
        · exact .inl ⟨score, hold⟩
    · cases hstep

theorem same_environment {event : AdmissionEvent} (hstep : s.environment event = some s') :
    s'.inflight = s.inflight ∧ s'.tenantInflight = s.tenantInflight ∧
      s'.queueDepth = s.queueDepth ∧ s'.members = s.members ∧ s.foreign ⊆ s'.foreign := by
  cases event with
  | tick ticks =>
    cases hstep
    exact ⟨rfl, rfl, rfl, rfl, fun _ => id⟩
  | script limits call =>
    simp only [Admission.environment] at hstep
    split at hstep
    · cases hstep
      refine ⟨rfl, rfl, rfl, rfl, ?_⟩
      split
      · exact fun _ => id
      · exact List.subset_cons_self _ _
    · cases hstep

end Under

end AiPlatform.Dispatch
