/-
  AiPlatform.Runtime.BridgeHonesty

  What a capability call with an effect may say about an execution that can
  have run.

  * `Honest` — the outcome is the status of a terminal event that the worker
    itself returned for this call, or `SideEffectUnknown`.
  * `followExecution_honest`, `exists_followExecution` — the two polling loops
    return, and a status they return is one the worker reported.
  * `honest_iff_reachesExecution` — with no execution id given the bridge is
    honest; with one given it is exactly when the call gets as far as asking the
    worker for that execution and is not turned away.
-/

import AiPlatform.Runtime.CapabilityExecution

namespace AiPlatform.Runtime.CapabilityExecution

open AiPlatform.Json AiPlatform.Capability AiPlatform.Checks AiPlatform.Looping
open AiPlatform.Runtime.CapabilityWorker

/-! ## What the call has heard -/

/-- The worker answered the request and will not carry it out. -/
def DefinitivelyRejected {α : Type} (reply : Reply α) : Prop :=
  ∃ status body, reply = .response status body ∧ status ∈ [400, 401, 403, 404, 409, 422]

/-- An execution of this call can exist: one was given, or a create request was
    sent and not definitively rejected. -/
def MayHaveRun (call : CapabilityCall) (sent : List Exchange) : Prop :=
  call.existingExecutionId.isSome ∨
    ∃ request reply, .create request reply ∈ sent ∧ ∀ r, reply = some r → ¬ DefinitivelyRejected r

/-- The worker named the execution in reply to `create` or `get`. -/
def Named (sent : List Exchange) (executionId : String) : Prop :=
  ∃ status execution, (200 ≤ status ∧ status < 300) ∧ execution.executionId = executionId ∧
    ((∃ request, .create request (some (.response status (.value execution))) ∈ sent) ∨
      ∃ id, .get id (some (.response status (.value execution))) ∈ sent)

/-- The worker returned the event, under the id of the call, for the execution
    it had named. -/
def Reported (sent : List Exchange) (toolCallId : String) (event : CapabilityEventV2) : Prop :=
  ∃ afterSequence status page, (200 ≤ status ∧ status < 300) ∧ event ∈ page.events ∧
    .events event.executionId afterSequence (.response status (.value page)) ∈ sent ∧
    Named sent event.executionId ∧ event.toolCallId = toolCallId

/-- The outcome is `SideEffectUnknown`, or what a terminal event of this call says. -/
def Honest (crates : Crates) (call : CapabilityCall) (sent : List Exchange)
    (result : CallResult) : Prop :=
  ∃ outcome, result = .ok outcome ∧
    (outcome.status = .sideEffectUnknown ∨
      ∃ event, Reported sent call.params.callId event ∧ event.status.isTerminal = true ∧
        projectTerminal crates event = .ok outcome ∧ outcome.status = event.status)

variable {crates : Crates} {env : Surroundings} {call : CapabilityCall}

theorem projectTerminal_status {event : CapabilityEventV2} {outcome : CapabilityExecutionOutcome}
    (h : projectTerminal crates event = .ok outcome) :
    event.status.isTerminal = true ∧ outcome.status = event.status := by
  simp only [projectTerminal, bind_eq_ok, failIf_eq_ok, pure_eq_ok] at h
  obtain ⟨_, hterminal, _, -, rfl⟩ := h
  exact ⟨by simpa using hterminal, rfl⟩

theorem Named.mono {sent : List Exchange} {executionId : String} (exchange : Exchange)
    (h : Named sent executionId) : Named (sent ++ [exchange]) executionId := by
  obtain ⟨status, execution, hstatus, hid, hsent⟩ := h
  refine ⟨status, execution, hstatus, hid, ?_⟩
  rcases hsent with ⟨request, hmem⟩ | ⟨id, hmem⟩
  · exact .inl ⟨request, List.mem_append_left _ hmem⟩
  · exact .inr ⟨id, List.mem_append_left _ hmem⟩

/-! ## The polling loops -/

/-- A result of the loops says what the worker reported, or is an error. -/
def FromWorker (crates : Crates) (toolCallId : String) (r : CallResult × World) : Prop :=
  ∀ outcome, r.1 = .ok outcome →
    ∃ event, Reported r.2.sent toolCallId event ∧ projectTerminal crates event = .ok outcome

theorem FromWorker.of_error {toolCallId : String} {error : CapabilityExecutionError} {w : World} :
    FromWorker crates toolCallId (.error error, w) :=
  nofun

/-- What a page that was accepted adds to what is known. -/
theorem askEvents_ok {scope : CapabilityScopeV2} {executionId : String} {afterSequence n : Nat}
    {w w' : World} {page : CapabilityEventPageV2}
    (h : askEvents crates env scope executionId afterSequence n w = (.ok page, w')) :
    w' = w.log (.events executionId afterSequence (env.events n)) ∧
      readEvents (env.events n) executionId afterSequence = .ok page := by
  unfold askEvents at h
  split at h
  · cases h
  · obtain ⟨hread, rfl⟩ := Prod.mk.inj h
    exact ⟨rfl, hread⟩

/-- A result that a page leads to comes from the worker. -/
theorem observe_ended {executionId toolCallId : String} {afterSequence n : Nat} {w : World}
    {page : CapabilityEventPageV2} {result : CallResult}
    (hnamed : Named w.sent executionId)
    (hread : readEvents (env.events n) executionId afterSequence = .ok page)
    (h : observe crates toolCallId page = .ended result) :
    FromWorker crates toolCallId
      (result, w.log (.events executionId afterSequence (env.events n))) := by
  intro outcome hok
  unfold observe at h
  split at h
  · cases h
  · rename_i event hevent
    split at h
    · obtain rfl := Seen.ended.inj h
      cases hok
    · rename_i hcall
      split at h
      · obtain rfl := Seen.ended.inj h
        obtain ⟨status, hstatus, hreply⟩ := readEvents_ok hread
        have hexecution := (readEvents_head hread hevent).1
        refine ⟨event, ⟨afterSequence, status, page, hstatus, ?_, ?_, ?_, ?_⟩, hok⟩
        · exact List.mem_of_mem_head? hevent
        · rw [hexecution, ← hreply]
          exact List.mem_append_right _ (List.mem_singleton_self _)
        · rw [hexecution]
          exact hnamed.mono _
        · simpa using hcall
      · cases h

/-- Progress moves the cursor on, within `u64`. -/
theorem observe_progress {executionId toolCallId : String} {afterSequence sequence : Nat}
    {reply : Reply CapabilityEventPageV2} {page : CapabilityEventPageV2}
    (hread : readEvents reply executionId afterSequence = .ok page)
    (h : observe crates toolCallId page = .progress sequence) :
    afterSequence < sequence ∧ sequence < 2 ^ 64 := by
  unfold observe at h
  split at h
  · cases h
  · rename_i event hevent
    split at h
    · cases h
    · split at h
      · cases h
      · obtain rfl := Seen.progress.inj h
        exact (readEvents_head hread hevent).2

/-- What a loop has left: sequence numbers past its cursor, and time. -/
def remaining (deadline : Nat) (c : Cursor) : Nat :=
  (2 ^ 64 - c.afterSequence) + (deadline - c.world.instant)

theorem remaining_progress {deadline sequence : Nat} {c : Cursor} {w : World}
    (hmore : c.afterSequence < sequence) (hbound : sequence < 2 ^ 64)
    (htime : c.world.instant ≤ w.instant) :
    remaining deadline { afterSequence := sequence, world := w } < remaining deadline c := by
  simp only [remaining]
  omega

theorem remaining_idle {deadline : Nat} {c : Cursor} {w : World}
    (htime : c.world.instant < w.instant) (hdeadline : c.world.instant < deadline) :
    remaining deadline { c with world := w } < remaining deadline c := by
  simp only [remaining]
  omega

theorem graceTurn_again {scope : CapabilityScopeV2} {executionId toolCallId : String}
    {deadline : Nat} {c c' : Cursor} (hnamed : Named c.world.sent executionId)
    (h : graceTurn crates env scope executionId toolCallId deadline c = .again c') :
    Named c'.world.sent executionId ∧ remaining deadline c' < remaining deadline c := by
  have hpass : c.world.instant ≤ (c.world.pass env).instant := World.instant_le_pass _
  unfold graceTurn at h
  dsimp only at h
  split at h
  · cases h
  · split at h
    · cases h
    · rename_i page w hpage
      obtain ⟨rfl, hread⟩ := askEvents_ok hpage
      split at h
      · cases h
      · rename_i sequence hprogress
        obtain rfl := Turn.again.inj h
        obtain ⟨hmore, hbound⟩ := observe_progress hread hprogress
        exact ⟨hnamed.mono _, remaining_progress hmore hbound hpass⟩
      · split at h
        · cases h
        · rename_i hearly
          obtain rfl := Turn.again.inj h
          refine ⟨hnamed.mono _, remaining_idle ?_ ?_⟩
          · calc c.world.instant
                ≤ (c.world.pass env).instant := hpass
              _ ≤ (((c.world.pass env).log _).pass env).instant := World.instant_le_pass _
              _ < _ := World.instant_lt_sleep _
          · calc c.world.instant
                ≤ (c.world.pass env).instant := hpass
              _ ≤ (((c.world.pass env).log _).pass env).instant := World.instant_le_pass _
              _ < deadline := Nat.not_le.mp hearly

theorem graceTurn_exit {scope : CapabilityScopeV2} {executionId toolCallId : String}
    {deadline : Nat} {c : Cursor} {r : CallResult × World}
    (hnamed : Named c.world.sent executionId)
    (h : graceTurn crates env scope executionId toolCallId deadline c = .exit r) :
    FromWorker crates toolCallId r := by
  unfold graceTurn at h
  dsimp only at h
  split at h
  · obtain rfl := Turn.exit.inj h
    exact .of_error
  · split at h
    · obtain rfl := Turn.exit.inj h
      exact .of_error
    · rename_i page w hpage
      obtain ⟨rfl, hread⟩ := askEvents_ok hpage
      split at h
      · rename_i result hended
        obtain rfl := Turn.exit.inj h
        exact observe_ended (w := c.world.pass env) hnamed hread hended
      · cases h
      · split at h
        · obtain rfl := Turn.exit.inj h
          exact .of_error
        · cases h

theorem pollTurn_again {scope : CapabilityScopeV2} {executionId toolCallId : String}
    {deadline : Nat} {c c' : Cursor} (hnamed : Named c.world.sent executionId)
    (h : pollTurn crates env scope executionId toolCallId deadline c = .again c') :
    Named c'.world.sent executionId ∧ remaining deadline c' < remaining deadline c := by
  have hlook : c.world.instant ≤ ((c.world.pass env).pass env).instant :=
    Nat.le_trans (World.instant_le_pass _) (World.instant_le_pass _)
  have hwait : c.world.instant ≤ (((c.world.pass env).pass env).pass env).instant :=
    Nat.le_trans hlook (World.instant_le_pass _)
  unfold pollTurn at h
  dsimp only at h
  split at h
  · cases h
  · split at h
    · cases h
    · rename_i hearly
      split at h
      · cases h
      · split at h
        · cases h
        · rename_i page w hpage
          obtain ⟨rfl, hread⟩ := askEvents_ok hpage
          split at h
          · cases h
          · rename_i sequence hprogress
            obtain rfl := Turn.again.inj h
            obtain ⟨hmore, hbound⟩ := observe_progress hread hprogress
            exact ⟨hnamed.mono _, remaining_progress hmore hbound hwait⟩
          · obtain rfl := Turn.again.inj h
            refine ⟨hnamed.mono _, remaining_idle ?_ ?_⟩
            · exact Nat.lt_of_le_of_lt hwait (World.instant_lt_sleep _)
            · exact Nat.lt_of_le_of_lt hlook (Nat.not_le.mp hearly)

/-- What the polling loop leaves behind when it exits. -/
def PollExit.Ok (crates : Crates) (executionId toolCallId : String) : PollExit → Prop
  | .ended result w => FromWorker crates toolCallId (result, w)
  | .confirm c => Named c.world.sent executionId

theorem pollTurn_exit {scope : CapabilityScopeV2} {executionId toolCallId : String}
    {deadline : Nat} {c : Cursor} {r : PollExit} (hnamed : Named c.world.sent executionId)
    (h : pollTurn crates env scope executionId toolCallId deadline c = .exit r) :
    r.Ok crates executionId toolCallId := by
  unfold pollTurn at h
  dsimp only at h
  split at h
  · obtain rfl := Turn.exit.inj h
    exact hnamed
  · split at h
    · obtain rfl := Turn.exit.inj h
      exact hnamed
    · split at h
      · obtain rfl := Turn.exit.inj h
        exact hnamed
      · split at h
        · obtain rfl := Turn.exit.inj h
          exact .of_error
        · rename_i page w hpage
          obtain ⟨rfl, hread⟩ := askEvents_ok hpage
          split at h
          · rename_i result hended
            obtain rfl := Turn.exit.inj h
            exact observe_ended (w := ((c.world.pass env).pass env).pass env) hnamed hread hended
          · cases h
          · cases h

/-! ## Following an execution -/

/-- `cancel_and_confirm_terminal` returns, and a status it returns is one the
    worker reported. -/
theorem cancelAndConfirmTerminal_eventually {scope : CapabilityScopeV2}
    {executionId toolCallId : String} {c : Cursor} (hnamed : Named c.world.sent executionId) :
    ∃ r, Eventually (fun fuel =>
        cancelAndConfirmTerminal crates env scope executionId toolCallId fuel c) r ∧
      FromWorker crates toolCallId r := by
  unfold cancelAndConfirmTerminal
  dsimp only
  split
  · exact ⟨_, .const, .of_error⟩
  · split
    · exact ⟨_, .const, .of_error⟩
    · split
      · exact ⟨_, .const, .of_error⟩
      · split
        · exact ⟨_, .const, .of_error⟩
        · set w := (((c.world.pass env).log (.cancel executionId env.cancel)).pass env) with hw
          have hstart : Named ({ c with world := w } : Cursor).world.sent executionId :=
            hnamed.mono _
          obtain ⟨r, hr⟩ : ∃ r, Returns (graceTurn crates env scope executionId toolCallId
              (w.instant + CANCELLATION_GRACE_PERIOD)) { c with world := w } r :=
            exists_returns (remaining _) (fun _ _ hc hturn => graceTurn_again hc hturn) hstart
          refine ⟨r, .of_returns hr, ?_⟩
          exact hr.induct (fun _ _ hc hturn => (graceTurn_again hc hturn).1)
            (fun _ _ hc hturn => graceTurn_exit hc hturn) hstart

/-- The execution is followed to a result, and a status it returns is one the
    worker reported. -/
theorem followExecution_eventually {scope : CapabilityScopeV2} {executionId toolCallId : String}
    {w : World} (hnamed : Named w.sent executionId) :
    ∃ r, Eventually (fun fuel =>
        followExecution crates env scope executionId toolCallId fuel w) r ∧
      FromWorker crates toolCallId r := by
  have hstart : Named ({ afterSequence := 0, world := w.pass env } : Cursor).world.sent
      executionId := hnamed
  obtain ⟨exit, hexit⟩ : ∃ exit, Returns (pollTurn crates env scope executionId toolCallId
      ((w.pass env).instant + EXECUTION_DEADLINE))
      { afterSequence := 0, world := w.pass env } exit :=
    exists_returns (remaining _) (fun _ _ hc hturn => pollTurn_again hc hturn) hstart
  have hok : exit.Ok crates executionId toolCallId :=
    hexit.induct (fun _ _ hc hturn => (pollTurn_again hc hturn).1)
      (fun _ _ hc hturn => pollTurn_exit hc hturn) hstart
  cases exit with
  | ended result w' =>
    exact ⟨(result, w'), Eventually.bind (.of_returns hexit) .const, hok⟩
  | confirm c =>
    obtain ⟨r, hr, hfrom⟩ : ∃ r, Eventually (fun fuel =>
        cancelAndConfirmTerminal crates env scope executionId toolCallId fuel c) r ∧
          FromWorker crates toolCallId r := cancelAndConfirmTerminal_eventually hok
    exact ⟨r, Eventually.bind (.of_returns hexit) hr, hfrom⟩

/-! ## Up to dispatch -/

/-- The checks that a call passes before it asks for an execution, with the
    values it computes on the way. -/
structure Accepted (crates : Crates) (env : Surroundings) (call : CapabilityCall)
    (argumentsHash : String) (now : Nat) (descriptor : CapabilityDescriptorV2)
    (lease : RuntimeCapabilityLeaseV1) : Prop where
  thread : call.params.threadId = call.identity.runtimeThreadId
  turn : call.params.turnId ≠ ""
  callId : call.params.callId ≠ ""
  binding : validateBinding crates call.binding call.params = .ok ()
  secret : 32 ≤ call.secret.length
  revision : call.binding.capabilityRevision ≠ 0
  arguments : call.params.arguments.isObject = true
  hash : canonicalJsonHash crates call.params.arguments = .ok argumentsHash
  clock : epochMs env = .ok now
  descriptorValid : call.binding.descriptor.validate crates = .ok ()
  descriptorMatches : call.matches call.binding.descriptor = true
  descriptorId : call.binding.descriptor.id = call.binding.expectedTool.id
  chosen : chooseDescriptor call (catalogAnswer crates env call) = .ok descriptor
  signed : (leaseFor env call argumentsHash now).sign crates call.secret = .ok lease
  leaseValid : lease.validate now = .ok ()
  requestValid :
    (requestFor crates call argumentsHash descriptor lease).validate crates now = .ok ()

def Accepts (crates : Crates) (env : Surroundings) (call : CapabilityCall) : Prop :=
  ∃ argumentsHash now descriptor lease,
    Accepted crates env call argumentsHash now descriptor lease

theorem checkCall_eq_ok {argumentsHash : String} {now : Nat} :
    checkCall crates env call = .ok (argumentsHash, now) ↔
      call.params.threadId = call.identity.runtimeThreadId ∧ call.params.turnId ≠ "" ∧
        call.params.callId ≠ "" ∧ validateBinding crates call.binding call.params = .ok () ∧
        32 ≤ call.secret.length ∧ call.binding.capabilityRevision ≠ 0 ∧
        call.params.arguments.isObject = true ∧
        canonicalJsonHash crates call.params.arguments = .ok argumentsHash ∧
        epochMs env = .ok now ∧ call.binding.descriptor.validate crates = .ok () ∧
        call.matches call.binding.descriptor = true ∧
        call.binding.descriptor.id = call.binding.expectedTool.id := by
  simp only [checkCall, bind_eq_ok, failIf_eq_ok, mapError_eq_ok, pure_eq_ok, Prod.mk.injEq]
  constructor
  · rintro ⟨_, hids, _, hbinding, _, hsecret, _, harguments, hash, hhash, ms, hclock, _, hvalid,
      _, hmatches, rfl, rfl⟩
    simp only [Bool.or_eq_false_iff, bne_eq_false_iff_eq, beq_eq_false_iff_ne,
      decide_eq_false_iff_not, Nat.not_lt, Bool.not_eq_false'] at hids hsecret harguments hmatches
    exact ⟨hids.1.1, hids.1.2, hids.2, hbinding, hsecret.1, hsecret.2, harguments, hhash, hclock,
      hvalid, hmatches.1, hmatches.2⟩
  · rintro ⟨hthread, hturn, hcall, hbinding, hsecret, hrevision, harguments, hhash, hclock,
      hvalid, hmatches, hid⟩
    refine ⟨(), ?_, (), hbinding, (), ?_, (), ?_, _, hhash, _, hclock, (), hvalid, (), ?_,
      rfl, rfl⟩
    · simp [hthread, hturn, hcall]
    · simp [hsecret, hrevision]
    · simp [harguments]
    · simp [hmatches, hid]

theorem signedRequest_eq_ok {argumentsHash : String} {now : Nat}
    {descriptor : CapabilityDescriptorV2} {request : CreateCapabilityExecutionRequestV2} :
    signedRequest crates env call argumentsHash now descriptor = .ok request ↔
      ∃ lease, (leaseFor env call argumentsHash now).sign crates call.secret = .ok lease ∧
        lease.validate now = .ok () ∧
        (requestFor crates call argumentsHash descriptor lease).validate crates now = .ok () ∧
        requestFor crates call argumentsHash descriptor lease = request := by
  simp only [signedRequest, bind_eq_ok, mapError_eq_ok, pure_eq_ok]
  constructor
  · rintro ⟨lease, hsigned, _, hlease, _, hrequest, rfl⟩
    exact ⟨lease, hsigned, hlease, hrequest, rfl⟩
  · rintro ⟨lease, hsigned, hlease, hrequest, rfl⟩
    exact ⟨lease, hsigned, (), hlease, (), hrequest, rfl⟩

/-- A call is accepted when its three stages of checks all succeed. -/
theorem accepts_iff :
    Accepts crates env call ↔
      ∃ argumentsHash now descriptor request,
        checkCall crates env call = .ok (argumentsHash, now) ∧
          chooseDescriptor call (catalogAnswer crates env call) = .ok descriptor ∧
          signedRequest crates env call argumentsHash now descriptor = .ok request := by
  constructor
  · rintro ⟨argumentsHash, now, descriptor, lease, h⟩
    refine ⟨argumentsHash, now, descriptor, _, checkCall_eq_ok.mpr ?_, h.chosen,
      signedRequest_eq_ok.mpr ⟨lease, h.signed, h.leaseValid, h.requestValid, rfl⟩⟩
    exact ⟨h.thread, h.turn, h.callId, h.binding, h.secret, h.revision, h.arguments, h.hash,
      h.clock, h.descriptorValid, h.descriptorMatches, h.descriptorId⟩
  · rintro ⟨argumentsHash, now, descriptor, request, hchecks, hchosen, hsigned⟩
    obtain ⟨hthread, hturn, hcall, hbinding, hsecret, hrevision, harguments, hhash, hclock,
      hvalid, hmatches, hid⟩ := checkCall_eq_ok.mp hchecks
    obtain ⟨lease, hsign, hlease, hrequest, -⟩ := signedRequest_eq_ok.mp hsigned
    exact ⟨argumentsHash, now, descriptor, lease,
      { thread := hthread
        turn := hturn
        callId := hcall
        binding := hbinding
        secret := hsecret
        revision := hrevision
        arguments := harguments
        hash := hhash
        clock := hclock
        descriptorValid := hvalid
        descriptorMatches := hmatches
        descriptorId := hid
        chosen := hchosen
        signed := hsign
        leaseValid := hlease
        requestValid := hrequest }⟩

/-- Before dispatch the worker has been asked for its catalog at most. -/
def OnlyCatalog (sent : List Exchange) : Prop :=
  ∀ exchange ∈ sent, ∃ reply, exchange = .catalog reply

theorem askCatalog_onlyCatalog {w : World} (h : OnlyCatalog w.sent) :
    OnlyCatalog (askCatalog crates env call w).sent := by
  unfold askCatalog
  split
  · exact h
  · intro exchange hmem
    rcases List.mem_append.mp hmem with hold | hnew
    · exact h exchange hold
    · exact ⟨env.catalog, List.mem_singleton.mp hnew⟩

theorem askCatalog_clock (crates : Crates) (env : Surroundings) (call : CapabilityCall)
    (w : World) :
    (askCatalog crates env call w).instant = w.instant + env.elapsed w.step ∧
      (askCatalog crates env call w).step = w.step + 1 := by
  unfold askCatalog
  split
  · exact ⟨rfl, rfl⟩
  · exact ⟨rfl, rfl⟩

theorem isCancelled_mono {t t' : Nat} (hle : t ≤ t') (h : env.isCancelled t = true) :
    env.isCancelled t' = true := by
  unfold Surroundings.isCancelled at h ⊢
  cases hat : env.cancelAt with
  | none => simp [hat] at h
  | some at_ =>
    simp only [hat, Option.any_some, decide_eq_true_eq] at h ⊢
    omega

theorem after_mono {n m : Nat} (hle : n ≤ m) : env.after n ≤ env.after m := by
  induction hle with
  | refl => exact Nat.le_refl _
  | step _ ih => exact Nat.le_trans ih (Nat.le_add_right _ _)

theorem onlyCatalog_start : OnlyCatalog World.start.sent := by
  intro exchange hmem
  cases hmem

/-- A call that is stopped says nothing about an execution. -/
def Stopped (crates : Crates) (result : CallResult) : Prop :=
  result = .ok (cancelledBeforeDispatch crates) ∨ ∃ error, result = .error error

/-- What happens before dispatch: the call is accepted, with the token not
    cancelled by its third wait, or it is stopped. -/
theorem prepare_cases (crates : Crates) (env : Surroundings) (call : CapabilityCall) :
    (∃ request w, prepare crates env call = (.ready request, w) ∧ OnlyCatalog w.sent ∧
        w.instant = env.after 3 ∧ w.step = 3 ∧
        Accepts crates env call ∧ env.isCancelled (env.after 3) = false) ∨
      ∃ result w, prepare crates env call = (.stopped result, w) ∧ OnlyCatalog w.sent ∧
        Stopped crates result ∧
        ¬ (Accepts crates env call ∧ env.isCancelled (env.after 3) = false) := by
  have hasked : OnlyCatalog (askCatalog crates env call (World.start.pass env)).sent :=
    askCatalog_onlyCatalog onlyCatalog_start
  have hclock := askCatalog_clock crates env call (World.start.pass env)
  have hfirst : (World.start.pass env).instant = env.after 1 := rfl
  have hthird : ((askCatalog crates env call (World.start.pass env)).pass env).instant =
      env.after 3 := by
    change _ + env.elapsed _ = _
    rw [hclock.1, hclock.2]
    rfl
  unfold prepare
  dsimp only
  split
  · rename_i hcancelled
    rw [hfirst] at hcancelled
    have hthen : env.isCancelled (env.after 3) = true :=
      isCancelled_mono (after_mono (by decide)) hcancelled
    exact .inr ⟨_, _, rfl, onlyCatalog_start, .inl rfl, by simp [hthen]⟩
  · split
    · rename_i error hchecks
      refine .inr ⟨_, _, rfl, onlyCatalog_start, .inr ⟨error, rfl⟩, ?_⟩
      rintro ⟨haccepts, -⟩
      obtain ⟨_, _, _, _, hok, -⟩ := accepts_iff.mp haccepts
      cases hchecks.symm.trans hok
    · rename_i argumentsHash now hchecks
      split
      · rename_i error hchosen
        refine .inr ⟨_, _, rfl, hasked, .inr ⟨error, rfl⟩, ?_⟩
        rintro ⟨haccepts, -⟩
        obtain ⟨_, _, _, _, -, hok, -⟩ := accepts_iff.mp haccepts
        cases hchosen.symm.trans hok
      · rename_i descriptor hchosen
        split
        · rename_i error hsigned
          refine .inr ⟨_, _, rfl, hasked, .inr ⟨error, rfl⟩, ?_⟩
          rintro ⟨haccepts, -⟩
          obtain ⟨_, _, _, _, hchecks', hchosen', hok⟩ := accepts_iff.mp haccepts
          cases hchecks.symm.trans hchecks'
          cases hchosen.symm.trans hchosen'
          cases hsigned.symm.trans hok
        · rename_i request hsigned
          split
          · rename_i hcancelled
            rw [hthird] at hcancelled
            exact .inr ⟨_, _, rfl, hasked, .inl rfl, by simp [hcancelled]⟩
          · rename_i hlive
            rw [hthird] at hlive
            refine .inl ⟨request, _, rfl, hasked, hthird, ?_, ?_, by simpa using hlive⟩
            · exact congrArg (· + 1) hclock.2
            · exact accepts_iff.mpr ⟨_, _, _, _, hchecks, hchosen, hsigned⟩

/-! ## Creation -/

/-- The runs of `orCancelled`: the token cuts it off, the request is not sent, or
    its reply is there. -/
theorem orCancelled_cases (env : Surroundings) (checks : Except CapabilityWorkerError Unit)
    (exchange : Option (Reply CapabilityExecutionV2) → Exchange)
    (reply : Reply CapabilityExecutionV2) {w : World} (hinstant : w.instant = env.after 3)
    (hstep : w.step = 3) :
    (∃ w', orCancelled env checks exchange reply w = (.cancelled, w') ∧
        (env.isCancelled (env.after 4) = true ∨
          checks = .ok () ∧ env.isCancelled (env.after 5) = true)) ∨
      (∃ error w', orCancelled env checks exchange reply w = (.ended (.error error), w') ∧
        checks = .error error ∧ env.isCancelled (env.after 4) = false ∧ w'.sent = w.sent) ∨
      (∃ w', orCancelled env checks exchange reply w = (.ended (readExecution reply), w') ∧
        checks = .ok () ∧ env.isCancelled (env.after 5) = false ∧
        w'.sent = w.sent ++ [exchange (some reply)]) := by
  have hlook : (w.pass env).instant = env.after 4 := by
    change w.instant + env.elapsed w.step = _
    rw [hinstant, hstep]
    rfl
  have hreply : ((w.pass env).pass env).instant = env.after 5 := by
    change (w.pass env).instant + env.elapsed (w.step + 1) = _
    rw [hlook, hstep]
    rfl
  unfold orCancelled
  dsimp only
  rw [hlook]
  split
  · rename_i hcancelled
    exact .inl ⟨_, rfl, .inl hcancelled⟩
  · rename_i hlive
    split
    · exact .inr (.inl ⟨_, _, rfl, rfl, by simpa using hlive, rfl⟩)
    · rw [hreply]
      split
      · rename_i hcancelled
        exact .inl ⟨_, rfl, .inr ⟨rfl, hcancelled⟩⟩
      · rename_i hlate
        exact .inr (.inr ⟨_, rfl, rfl, by simpa using hlate, rfl⟩)

/-- The worker's answer, or the client's own checks, rule out that anything was
    started. -/
def TurnedAway (creation : Creation) : Prop :=
  ∃ error, creation = .ended (.error error) ∧ createOutcomeMayBeUnknown error = false

theorem admits_error {scope : CapabilityScopeV2} {path : String} {error : CapabilityWorkerError}
    (h : admits crates scope path = .error error) : createOutcomeMayBeUnknown error = false := by
  unfold admits CapabilityWorker.validateScope at h
  simp only [failIf] at h
  split at h
  · cases h
    rfl
  · split at h
    · cases h
      rfl
    · cases h

theorem getChecks_error {scope : CapabilityScopeV2} {executionId : String}
    {error : CapabilityWorkerError} (h : getChecks crates scope executionId = .error error) :
    createOutcomeMayBeUnknown error = false := by
  unfold getChecks executionPath at h
  simp only [failIf] at h
  split at h
  · cases h
    rfl
  · exact admits_error h

theorem not_turnedAway {error : CapabilityWorkerError}
    (h : createOutcomeMayBeUnknown error = true) : ¬ TurnedAway (.ended (.error error)) := by
  rintro ⟨e, he, hknown⟩
  cases he
  rw [h] at hknown
  cases hknown

/-- A reply of success is not turned away, whatever is wrong with its body. -/
theorem readExecution_success {status : Nat} {body : Body CapabilityExecutionV2}
    (hstatus : 200 ≤ status ∧ status < 300) :
    ¬ TurnedAway (.ended (readExecution (.response status body))) := by
  cases body with
  | tooLarge =>
    have hread : readExecution (.response status .tooLarge) = .error .responseTooLarge := by
      simp [readExecution, Reply.read, hstatus, bind, Except.bind]
    rw [hread]
    exact not_turnedAway rfl
  | unreadable =>
    have hread : readExecution (.response status .unreadable) = .error .invalidResponse := by
      simp [readExecution, Reply.read, hstatus, bind, Except.bind]
    rw [hread]
    exact not_turnedAway rfl
  | value execution =>
    cases hvalid : execution.validate with
    | error e =>
      have hread : readExecution (.response status (.value execution)) =
          .error .invalidResponse := by
        simp [readExecution, Reply.read, hstatus, bind, Except.bind, hvalid, Except.mapError]
      rw [hread]
      exact not_turnedAway rfl
    | ok =>
      have hread : readExecution (.response status (.value execution)) = .ok execution := by
        simp [readExecution, Reply.read, hstatus, bind, Except.bind, hvalid, Except.mapError,
          pure, Except.pure]
      rw [hread]
      rintro ⟨_, heq, -⟩
      cases heq

/-- A reply without success is turned away by its status alone. -/
theorem readExecution_failure {status : Nat} {body : Body CapabilityExecutionV2}
    (hstatus : ¬ (200 ≤ status ∧ status < 300)) :
    TurnedAway (.ended (readExecution (.response status body))) ↔
      status ∈ [400, 401, 403, 404, 409, 422] := by
  have hfails : status < 200 ∨ 300 ≤ status := by omega
  have hread : readExecution (.response status body) =
      .error (if status == 408 then .timeout else .rejected status) := by
    simp [readExecution, Reply.read, hfails, bind, Except.bind]
  rw [hread]
  by_cases htimeout : status = 408
  · subst htimeout
    simp [TurnedAway, createOutcomeMayBeUnknown]
  · simp [TurnedAway, createOutcomeMayBeUnknown, htimeout]
    omega

/-- An execution request fails for good exactly when the worker says so. -/
theorem readExecution_turnedAway {reply : Reply CapabilityExecutionV2} :
    TurnedAway (.ended (readExecution reply)) ↔ DefinitivelyRejected reply := by
  cases reply with
  | timeout =>
    refine iff_of_false (not_turnedAway rfl) ?_
    rintro ⟨status, body, hreply, -⟩
    cases hreply
  | unavailable =>
    refine iff_of_false (not_turnedAway rfl) ?_
    rintro ⟨status, body, hreply, -⟩
    cases hreply
  | response status body =>
    have hrejected : DefinitivelyRejected (.response status body) ↔
        status ∈ [400, 401, 403, 404, 409, 422] := by
      constructor
      · rintro ⟨status', body', hreply, hmem⟩
        cases hreply
        exact hmem
      · exact fun hmem => ⟨status, body, rfl, hmem⟩
    by_cases hstatus : 200 ≤ status ∧ status < 300
    · refine iff_of_false (readExecution_success hstatus) ?_
      rw [hrejected]
      simp only [List.mem_cons, List.not_mem_nil, or_false]
      omega
    · rw [readExecution_failure hstatus, hrejected]

/-- A create request that was turned away leaves no execution behind. -/
theorem awaitCreation_create {request : CreateCapabilityExecutionRequestV2} {w : World}
    (hcall : call.existingExecutionId = none) (hcatalog : OnlyCatalog w.sent)
    (hinstant : w.instant = env.after 3) (hstep : w.step = 3)
    (h : TurnedAway (awaitCreation crates env call request w).1) :
    ¬ MayHaveRun call (awaitCreation crates env call request w).2.sent := by
  have hcreates : ∀ request' reply', .create request' reply' ∉ w.sent := by
    intro request' reply' hmem
    obtain ⟨reply, hreply⟩ := hcatalog _ hmem
    cases hreply
  unfold awaitCreation at h ⊢
  rw [hcall] at h ⊢
  dsimp only at h ⊢
  rintro (hexisting | ⟨request', reply', hmem, hopen⟩)
  · rw [hcall] at hexisting
    cases hexisting
  · rcases orCancelled_cases env (createChecks crates call.scope request) (.create request)
      env.create hinstant hstep with
      ⟨w', heq, -⟩ | ⟨error, w', heq, -, -, hsent⟩ | ⟨w', heq, -, -, hsent⟩
    · rw [heq] at h
      obtain ⟨_, hended, -⟩ := h
      cases hended
    · rw [heq, hsent] at hmem
      exact hcreates _ _ hmem
    · rw [heq] at h hmem
      rw [hsent] at hmem
      rcases List.mem_append.mp hmem with hold | hnew
      · exact hcreates _ _ hold
      · cases List.mem_singleton.mp hnew
        exact hopen _ rfl (readExecution_turnedAway.mp h)

/-- When the lookup of an execution id is not turned away. -/
def Answered (crates : Crates) (env : Surroundings) (call : CapabilityCall)
    (executionId : String) : Prop :=
  env.isCancelled (env.after 4) = true ∨
    getChecks crates call.scope executionId = .ok () ∧
      (env.isCancelled (env.after 5) = true ∨ ¬ DefinitivelyRejected env.get)

theorem awaitCreation_get {request : CreateCapabilityExecutionRequestV2} {w : World}
    {executionId : String} (hcall : call.existingExecutionId = some executionId)
    (hinstant : w.instant = env.after 3) (hstep : w.step = 3) :
    TurnedAway (awaitCreation crates env call request w).1 ↔
      ¬ Answered crates env call executionId := by
  unfold awaitCreation
  rw [hcall]
  dsimp only
  rcases orCancelled_cases env (getChecks crates call.scope executionId) (.get executionId)
    env.get hinstant hstep with
    ⟨w', heq, hcancelled⟩ | ⟨error, w', heq, hchecks, hlive, -⟩ | ⟨w', heq, hchecks, hlive, -⟩
  · rw [heq]
    have hanswered : Answered crates env call executionId := by
      rcases hcancelled with hlook | ⟨hchecks, hreply⟩
      · exact .inl hlook
      · exact .inr ⟨hchecks, .inl hreply⟩
    refine iff_of_false ?_ (not_not_intro hanswered)
    rintro ⟨_, hended, -⟩
    cases hended
  · rw [heq]
    refine iff_of_true ⟨error, rfl, getChecks_error hchecks⟩ ?_
    rintro (hlook | ⟨hok, -⟩)
    · rw [hlive] at hlook
      cases hlook
    · rw [hchecks] at hok
      cases hok
  · rw [heq]
    have hlook : env.isCancelled (env.after 4) = false := by
      refine Bool.eq_false_iff.mpr fun hcancelled => ?_
      rw [isCancelled_mono (after_mono (by decide)) hcancelled] at hlive
      cases hlive
    simp only [readExecution_turnedAway, Answered, hlook, hchecks, hlive]
    simp

/-- An execution the call goes on with was named by the worker. -/
theorem awaitCreation_named {request : CreateCapabilityExecutionRequestV2} {w w' : World}
    {execution : CapabilityExecutionV2} (hinstant : w.instant = env.after 3) (hstep : w.step = 3)
    (h : awaitCreation crates env call request w = (.ended (.ok execution), w')) :
    Named w'.sent execution.executionId := by
  have hended : ∀ {checks exchange reply},
      orCancelled env checks exchange reply w = (.ended (.ok execution), w') →
        ∃ status, (200 ≤ status ∧ status < 300) ∧
          exchange (some (.response status (.value execution))) ∈ w'.sent := by
    intro checks exchange reply heq
    rcases orCancelled_cases env checks exchange reply hinstant hstep with
      ⟨_, heq', -⟩ | ⟨_, _, heq', -⟩ | ⟨_, heq', -, -, hsent⟩
    · cases heq'.symm.trans heq
    · cases heq'.symm.trans heq
    · obtain ⟨hread, rfl⟩ := Prod.mk.inj (heq'.symm.trans heq)
      obtain ⟨status, hstatus, rfl⟩ := readExecution_ok (Creation.ended.inj hread)
      rw [hsent]
      exact ⟨status, hstatus, List.mem_append_right _ (List.mem_singleton_self _)⟩
  unfold awaitCreation at h
  split at h
  · rename_i id _
    obtain ⟨status, hstatus, hmem⟩ := hended h
    exact ⟨status, execution, hstatus, rfl, .inr ⟨id, hmem⟩⟩
  · obtain ⟨status, hstatus, hmem⟩ := hended h
    exact ⟨status, execution, hstatus, rfl, .inl ⟨request, hmem⟩⟩

/-! ## The whole call -/

theorem honest_sideEffectUnknown {sent : List Exchange} :
    Honest crates call sent (.ok (sideEffectUnknown crates)) :=
  ⟨_, rfl, .inl rfl⟩

theorem not_honest_error {sent : List Exchange} {error : CapabilityExecutionError} :
    ¬ Honest crates call sent (.error error) := by
  rintro ⟨outcome, hok, -⟩
  cases hok

theorem FromWorker.honest {outcome : CapabilityExecutionOutcome} {w : World}
    (h : FromWorker crates call.params.callId (.ok outcome, w)) :
    Honest crates call w.sent (.ok outcome) := by
  obtain ⟨event, hreported, hproject⟩ := h outcome rfl
  obtain ⟨hterminal, hstatus⟩ := projectTerminal_status hproject
  exact ⟨outcome, rfl, .inr ⟨event, hreported, hterminal, hproject, hstatus⟩⟩

/-- A call that is stopped before dispatch has no event to go by. -/
theorem Stopped.not_honest {result : CallResult} {sent : List Exchange}
    (h : Stopped crates result) (hcatalog : OnlyCatalog sent) :
    ¬ Honest crates call sent result := by
  rcases h with rfl | ⟨error, rfl⟩
  · rintro ⟨outcome, hok, hunknown | ⟨event, hreported, -⟩⟩
    · cases hok
      cases hunknown
    · obtain ⟨_, _, _, _, _, hsent, -⟩ := hreported
      obtain ⟨_, hreply⟩ := hcatalog _ hsent
      cases hreply
  · exact not_honest_error

/-- From dispatch on, a call with an effect is honest unless it was turned away,
    and then it ends where it was. -/
theorem exists_result (heffect : call.expectedEffect ≠ .read)
    {request : CreateCapabilityExecutionRequestV2} {w : World}
    (hprepare : prepare crates env call = (.ready request, w))
    (hinstant : w.instant = env.after 3) (hstep : w.step = 3) :
    ∃ result w', Eventually (executeCapabilityWithExisting crates env call) (result, w') ∧
      (Honest crates call w'.sent result ↔
        ¬ TurnedAway (awaitCreation crates env call request w).1) ∧
      (TurnedAway (awaitCreation crates env call request w).1 →
        w' = (awaitCreation crates env call request w).2) := by
  have hread : (call.expectedEffect == .read) = false := by simpa using heffect
  have hwrite : (call.expectedEffect != .read) = true := by simpa using heffect
  rcases hcreation : awaitCreation crates env call request w with ⟨creation, w'⟩
  cases creation with
  | cancelled =>
    have hrun : ∀ fuel, executeCapabilityWithExisting crates env call fuel =
        some (.ok (sideEffectUnknown crates), w') := by
      intro fuel
      simp [executeCapabilityWithExisting, hprepare, hcreation, hread]
    refine ⟨_, w', .of_forall hrun, iff_of_true honest_sideEffectUnknown ?_, fun _ => rfl⟩
    rintro ⟨_, hended, -⟩
    cases hended
  | ended created =>
    cases created with
    | error error =>
      cases hunknown : createOutcomeMayBeUnknown error with
      | true =>
        have hrun : ∀ fuel, executeCapabilityWithExisting crates env call fuel =
            some (.ok (sideEffectUnknown crates), w') := by
          intro fuel
          simp [executeCapabilityWithExisting, hprepare, hcreation, hwrite, hunknown]
        exact ⟨_, w', .of_forall hrun,
          iff_of_true honest_sideEffectUnknown (not_turnedAway hunknown), fun _ => rfl⟩
      | false =>
        have hrun : ∀ fuel, executeCapabilityWithExisting crates env call fuel =
            some (.error (.worker error), w') := by
          intro fuel
          simp [executeCapabilityWithExisting, hprepare, hcreation, hunknown]
        exact ⟨_, w', .of_forall hrun,
          iff_of_false not_honest_error (not_not_intro ⟨error, rfl, hunknown⟩), fun _ => rfl⟩
    | ok execution =>
      have hnamed : Named w'.sent execution.executionId :=
        awaitCreation_named hinstant hstep hcreation
      have hgoes : ¬ TurnedAway (.ended (.ok execution)) := by
        rintro ⟨_, hended, -⟩
        cases hended
      obtain ⟨⟨result, w''⟩, ⟨n, hfollow⟩, hfrom⟩ : ∃ r, Eventually (fun fuel =>
          followExecution crates env call.scope execution.executionId call.params.callId
            fuel w') r ∧ FromWorker crates call.params.callId r :=
        followExecution_eventually hnamed
      cases result with
      | error error =>
        have hrun : ∀ fuel, n ≤ fuel → executeCapabilityWithExisting crates env call fuel =
            some (.ok (sideEffectUnknown crates), w'') := by
          intro fuel hle
          simp [executeCapabilityWithExisting, hprepare, hcreation, hwrite, hfollow fuel hle]
        exact ⟨_, w'', ⟨n, hrun⟩, iff_of_true honest_sideEffectUnknown hgoes,
          fun h => absurd h hgoes⟩
      | ok outcome =>
        have hrun : ∀ fuel, n ≤ fuel → executeCapabilityWithExisting crates env call fuel =
            some (.ok outcome, w'') := by
          intro fuel hle
          simp [executeCapabilityWithExisting, hprepare, hcreation, hfollow fuel hle]
        exact ⟨_, w'', ⟨n, hrun⟩, iff_of_true hfrom.honest hgoes, fun h => absurd h hgoes⟩

/-- The call gets as far as asking the worker for the execution it was given, and
    is not turned away: its own checks pass, the token is not cancelled before,
    and the lookup is cut off by the token or not definitively rejected. -/
structure ReachesExecution (crates : Crates) (env : Surroundings) (call : CapabilityCall)
    (executionId : String) : Prop where
  accepts : Accepts crates env call
  live : env.isCancelled (env.after 3) = false
  answered : Answered crates env call executionId

/-- Every call with an effect returns.  When an execution of it can exist, what it
    returns is a status the worker reported for it or `SideEffectUnknown`, as long
    as an execution id that it was given is reached. -/
theorem honest_iff_reachesExecution (crates : Crates) (env : Surroundings)
    (call : CapabilityCall) (heffect : call.expectedEffect ≠ .read) :
    ∃ result w, Eventually (executeCapabilityWithExisting crates env call) (result, w) ∧
      ((MayHaveRun call w.sent → Honest crates call w.sent result) ↔
        ∀ executionId, call.existingExecutionId = some executionId →
          ReachesExecution crates env call executionId) := by
  have hgiven : ∀ {sent executionId}, call.existingExecutionId = some executionId →
      MayHaveRun call sent := fun h => .inl (by rw [h]; rfl)
  rcases prepare_cases crates env call with
    ⟨request, w, hprepare, hcatalog, hinstant, hstep, haccepts, hlive⟩ |
      ⟨result, w, hprepare, hcatalog, hstopped, hrefused⟩
  · obtain ⟨result, w', hresult, hhonest, hturned⟩ :=
      exists_result heffect hprepare hinstant hstep
    refine ⟨result, w', hresult, ?_⟩
    cases hcall : call.existingExecutionId with
    | none =>
      refine iff_of_true (fun hrun => hhonest.mpr fun haway => ?_) nofun
      refine awaitCreation_create hcall hcatalog hinstant hstep haway ?_
      rw [← hturned haway]
      exact hrun
    | some executionId =>
      have hget : TurnedAway (awaitCreation crates env call request w).1 ↔
          ¬ Answered crates env call executionId := awaitCreation_get hcall hinstant hstep
      constructor
      · intro h id hid
        cases hid
        have hnot := hhonest.mp (h (hgiven hcall))
        exact ⟨haccepts, hlive, not_not.mp fun hanswered => hnot (hget.mpr hanswered)⟩
      · intro h _
        exact hhonest.mpr fun haway => hget.mp haway (h executionId rfl).answered
  · have hrun : ∀ fuel, executeCapabilityWithExisting crates env call fuel =
        some (result, w) := by
      intro fuel
      unfold executeCapabilityWithExisting
      rw [hprepare]
    refine ⟨result, w, .of_forall hrun, ?_⟩
    cases hcall : call.existingExecutionId with
    | none =>
      refine iff_of_true ?_ nofun
      rintro (hexisting | ⟨request, reply, hmem, -⟩)
      · rw [hcall] at hexisting
        cases hexisting
      · obtain ⟨_, hreply⟩ := hcatalog _ hmem
        cases hreply
    | some executionId =>
      refine iff_of_false (fun h => hstopped.not_honest hcatalog (h (hgiven hcall))) fun h => ?_
      exact hrefused ⟨(h executionId rfl).accepts, (h executionId rfl).live⟩

/-! ## A write whose execution id is known -/

def sampleId : String := "00000000-0000-0000-0000-000000000001"

def sampleSchema : String := "\x7b\"type\":\"object\"\x7d"

def sampleArgumentsHash : String :=
  "sha256:44136fa355b3678a1146ad16f7e8649e94fb4fc21fe77e8310c060f61caaff8a"

/-- The text of the lease that is signed. -/
def samplePayload : String :=
  "\x7b\"schema_version\":\"runtime-capability-lease/v1\","
    ++ "\"lease_id\":\"00000000-0000-0000-0000-00000000000a\","
    ++ "\"tenant_id\":\"tenant\",\"user_id\":\"user\",\"session_id\":\"session\","
    ++ "\"run_id\":\"turn-a\",\"tool_call_id\":\"call-a\",\"attempt_id\":\"call-a\","
    ++ "\"capability_id\":\"generate_document\",\"capability_revision\":1,"
    ++ "\"arguments_hash\":\"" ++ sampleArgumentsHash ++ "\","
    ++ "\"effect\":\"write\",\"approval_id\":\"approval\","
    ++ "\"issued_at_epoch_ms\":1000,\"expires_at_epoch_ms\":121000,"
    ++ "\"nonce\":\"00000000-0000-0000-0000-00000000000b\",\"signature\":\"\"\x7d"

/-- The crates on the values of the call below: empty arguments, the schema, the
    lease, and the text behind the idempotency key. -/
def sampleCrates : Crates :=
  { toText := fun
      | .object [] => some "\x7b\x7d"
      | .object [_] => some sampleSchema
      | _ => some samplePayload
    collect := id
    sha256 := fun bytes =>
      if bytes = "\x7b\x7d".toUTF8.data.toList then
        [68, 19, 111, 163, 85, 179, 103, 138, 17, 70, 173, 22, 247, 232, 100, 158,
          148, 251, 79, 194, 31, 231, 126, 131, 16, 192, 96, 246, 28, 170, 255, 138]
      else if bytes = sampleSchema.toUTF8.data.toList then
        [162, 199, 153, 38, 42, 60, 227, 193, 158, 245, 205, 217, 131, 191, 61, 18,
          180, 58, 179, 196, 38, 34, 112, 145, 185, 9, 220, 183, 5, 71, 56, 192]
      else
        [247, 76, 116, 57, 192, 67, 20, 51, 135, 154, 198, 55, 200, 67, 212, 47,
          181, 136, 44, 205, 45, 188, 157, 91, 163, 53, 73, 202, 16, 70, 147, 200]
    hmacSha256 := fun _ _ =>
      [191, 49, 247, 167, 228, 177, 21, 10, 103, 126, 72, 83, 221, 33, 43, 253,
        45, 106, 80, 92, 119, 24, 161, 19, 32, 185, 255, 92, 209, 215, 240, 11]
    parsesUuid := fun text => text == sampleId
    joins := fun _ => true
    validateJsonSchema := fun _ => .ok () }

def sampleSchemaHash : String :=
  "sha256:a2c799262a3ce3c19ef5cdd983bf3d12b43ab3c426227091b909dcb7054738c0"

def sampleTool : CapabilityAllowlistEntry :=
  { capabilityType := "tool"
    name := "generate_document"
    id := "generate_document"
    version := none
    schemaHash := some sampleSchemaHash
    connectorBinding := none }

def sampleDescriptor : CapabilityDescriptorV2 :=
  { schemaVersion := CAPABILITY_DESCRIPTOR_SCHEMA_VERSION
    id := "generate_document"
    name := "generate_document"
    version := "null"
    description := "Generate a document"
    schemaHash := sampleSchemaHash
    inputSchema := .object [("type", .string "object")]
    outputSchema := .object [("type", .string "object")]
    effect := .write
    approvalPolicy := .always
    executionMode := .inline
    timeoutMs := 30000
    tags := ["kind:tool"]
    protocol := "internal"
    connectorBinding := none }

/-- A write that was dispatched before, looked up again by its execution id. -/
def sampleCall : CapabilityCall :=
  { identity :=
      { runtimeThreadId := "thread-a"
        tenantId := "tenant"
        userId := "user"
        sessionId := "session" }
    binding :=
      { capabilityRevision := 1
        allowlist := [sampleTool]
        expectedTool := sampleTool
        descriptor := sampleDescriptor }
    params :=
      { threadId := "thread-a"
        turnId := "turn-a"
        callId := "call-a"
        tool := "generate_document"
        arguments := .object [] }
    secret := List.replicate 32 7
    expectedEffect := .write
    approvalId := some "approval"
    existingExecutionId := some sampleId }

def sampleExecution : CapabilityExecutionV2 :=
  { schemaVersion := CAPABILITY_EXECUTION_SCHEMA_VERSION
    executionId := sampleId
    leaseId := "00000000-0000-0000-0000-00000000000a"
    tenantId := "tenant"
    userId := "user"
    sessionId := "session"
    runId := "turn-a"
    toolCallId := "call-a"
    attemptId := "call-a"
    capabilityId := "generate_document"
    capabilityRevision := 1
    argumentsHash := sampleArgumentsHash
    idempotencyKey := "capexec:0"
    effect := .write
    status := .succeeded
    eventsUrl := "/internal/v2/capabilities/executions/" ++ sampleId ++ "/events"
    result := none
    error := none }

/-- The execution has succeeded, and the worker says so when it is asked. -/
def samplePage : CapabilityEventPageV2 :=
  { schemaVersion := CAPABILITY_EVENT_SCHEMA_VERSION
    executionId := sampleId
    afterSequence := 0
    nextSequence := 1
    hasMore := false
    events :=
      [{ schemaVersion := CAPABILITY_EVENT_SCHEMA_VERSION
         executionId := sampleId
         toolCallId := "call-a"
         sequence := 1
         event := "terminal"
         status := .succeeded
         payload := (∅ : Payload).insert "content_items" (.array [])
         createdAtEpochMs := 1 }] }

def sampleSurroundings (cancelAt : Option Nat) : Surroundings :=
  { cancelAt := cancelAt
    elapsed := fun _ => 1
    favours := fun _ => .events
    epochMs := some 1000
    leaseId := "00000000-0000-0000-0000-00000000000a"
    nonce := "00000000-0000-0000-0000-00000000000b"
    catalog := .unavailable
    create := .unavailable
    get := .response 200 (.value sampleExecution)
    events := fun _ => .response 200 (.value samplePage)
    cancel := .response 200 (.value sampleExecution) }

def sampleLease : RuntimeCapabilityLeaseV1 :=
  { leaseFor (sampleSurroundings none) sampleCall sampleArgumentsHash 1000 with
    signature := "sha256:bf31f7a7e4b1150a677e4853dd212bfd2d6a505c7718a11320b9ff5cd1d7f00b" }

theorem sampleDescriptor_valid : sampleDescriptor.validate sampleCrates = .ok () := by decide

theorem sampleLease_valid : sampleLease.validate 1000 = .ok () := by decide

theorem sampleRequest_valid :
    (requestFor sampleCrates sampleCall sampleArgumentsHash sampleDescriptor
      sampleLease).validate sampleCrates 1000 = .ok () := by
  simp only [CreateCapabilityExecutionRequestV2.validate, bind_eq_ok, failIf_eq_ok]
  exact ⟨(), rfl, (), sampleLease_valid, (), sampleDescriptor_valid, (), by decide, (), by decide,
    sampleArgumentsHash, rfl, by decide⟩

theorem sampleCall_accepted :
    Accepted sampleCrates (sampleSurroundings none) sampleCall sampleArgumentsHash 1000
      sampleDescriptor sampleLease :=
  { thread := rfl
    turn := by decide
    callId := by decide
    binding := by decide
    secret := by decide
    revision := by decide
    arguments := rfl
    hash := rfl
    clock := rfl
    descriptorValid := sampleDescriptor_valid
    descriptorMatches := by decide
    descriptorId := rfl
    chosen := rfl
    signed := rfl
    leaseValid := sampleLease_valid
    requestValid := sampleRequest_valid }

/-- The execution is reached, and the call says what the worker says of it. -/
theorem honest_iff_reachesExecution_found :
    ∃ result w, Eventually
        (executeCapabilityWithExisting sampleCrates (sampleSurroundings none) sampleCall)
        (result, w) ∧
      Honest sampleCrates sampleCall w.sent result := by
  obtain ⟨result, w, hresult, hiff⟩ := honest_iff_reachesExecution sampleCrates
    (sampleSurroundings none) sampleCall (by decide)
  have hreached : ReachesExecution sampleCrates (sampleSurroundings none) sampleCall sampleId :=
    { accepts := ⟨_, _, _, _, sampleCall_accepted⟩
      live := rfl
      answered := by
        refine .inr ⟨rfl, .inr ?_⟩
        rintro ⟨status, body, hreply, hmem⟩
        cases hreply
        revert hmem
        decide }
  refine ⟨result, w, hresult, hiff.mpr ?_ (.inl rfl)⟩
  intro executionId hid
  cases hid
  exact hreached

/-- With the token cancelled beforehand, the same call reports `Cancelled` for an
    execution that has succeeded. -/
theorem cancelled_before_lookup :
    ∃ w, Eventually
        (executeCapabilityWithExisting sampleCrates (sampleSurroundings (some 0)) sampleCall)
        (.ok (cancelledBeforeDispatch sampleCrates), w) ∧
      sampleCall.expectedEffect ≠ .read ∧ MayHaveRun sampleCall w.sent ∧
      ¬ Honest sampleCrates sampleCall w.sent (.ok (cancelledBeforeDispatch sampleCrates)) := by
  refine ⟨World.start.pass (sampleSurroundings (some 0)), .of_forall fun _ => rfl, by decide,
    .inl rfl, ?_⟩
  exact Stopped.not_honest (.inl rfl) onlyCatalog_start

end AiPlatform.Runtime.CapabilityExecution
