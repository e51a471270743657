/-
  AiPlatform.Knowledge.LexicalCutover

  PostgreSQL selects the v2 index only while the collection does.

  Every step of a cutover and of a rollback keeps that, in whatever way its store
  call ends, but two steps of `_abort`: the one that takes PostgreSQL back to v2
  after the rollback has moved the collection, and the one that takes the
  collection back to v1 after a flip of PostgreSQL that raised although it was
  committed.
-/

import AiPlatform.Knowledge.LexicalLifecycle
import Mathlib.Data.List.Infix

namespace AiPlatform.Knowledge

open Transition

abbrev LifecycleMove := PoolMove Stores Executor Outcome Empty

/-- An honest reader finds the index that PostgreSQL selects. -/
def Servable (s : Stores) : Prop := s.postgres = .bm25V2 → s.collection = .bm25V2

/-- The executor is about to take PostgreSQL back after its rollback has moved the
    collection, or the collection after its cutover has moved PostgreSQL unknown. -/
def Executor.blind (e : Executor) : Bool :=
  match e.kind, e.phase with
  | .rollback, .aborting .flipBack attempt => attempt.collectionMoved
  | .cutover, .aborting .ensureLexicalConfig attempt => attempt.pgMoved
  | _, _ => false

/-- The step is such a compensation, and it takes effect. -/
def compensatesBlindly (x : LifecycleMove) : Bool :=
  match x.input with
  | .step i .done | .step i .lost => x.pre.threads[i]?.any Executor.blind
  | _ => false

/-! ## What an executor knows -/

/-- Where a transition stands, by the calls it has still to make. -/
structure RunningOk (kind : Kind) (calls : List Call) (attempt : Attempt) (s : Stores) : Prop where
  remaining : calls ∈ kind.calls.tails
  pgFlipped : attempt.pgFlipped = !decide (.flipActiveVersion ∈ calls)
  pgMoved : attempt.pgMoved = attempt.pgFlipped
  collectionMoved : attempt.collectionMoved = !decide (.ensureLexicalConfig ∈ calls)
  postgres : s.postgres = if attempt.pgMoved then kind.target else kind.origin
  collection : kind = .rollback ∨ attempt.collectionMoved = true →
    s.collection = if attempt.collectionMoved then kind.target else kind.origin

/-- Where an abort stands. -/
structure AbortingOk (kind : Kind) (call : AbortCall) (attempt : Attempt) (s : Stores) : Prop where
  flipBack : call = .flipBack → attempt.pgMoved = true
  snapshot : call = .snapshot → attempt.pgFlipped = true → attempt.pgMoved = true
  cutover : call = .profile ∨ call = .invalidateReceipt ∨ call = .ensureLexicalConfig → kind = .cutover
  postgres : call ≠ .failTransition → s.postgres = if attempt.pgMoved then kind.target else kind.origin
  collection : kind = .rollback → call = .snapshot ∨ call = .flipBack →
    s.collection = if attempt.collectionMoved then kind.target else kind.origin

def PhaseOk (kind : Kind) (phase : Phase) (s : Stores) : Prop :=
  match phase with
  | .recoverSnapshot found => ∃ row, s.row = some row ∧ row.state = found
  | .recoverWrite found steady =>
      (∃ row, s.row = some row ∧ row.state = found) ∧ steady = steadyOf s.postgres
  | .recoverRead => ∃ row, s.row = some row ∧ row.state = steadyOf s.postgres
  | .authority | .beginTransition => s.postgres = kind.origin
  | .running calls attempt => RunningOk kind calls attempt s
  | .aborting call attempt => AbortingOk kind call attempt s
  | _ => True

/-- One executor at most is past the barrier, and it knows what it has done. -/
structure StoresOk (pool : Pool Stores Executor) : Prop where
  one : ∀ (i j : Nat) (e f : Executor), pool.threads[i]? = some e → pool.threads[j]? = some f →
    e.phase.critical = true → f.phase.critical = true → i = j
  held : ∀ e ∈ pool.threads, e.phase.critical = true → pool.shared.barrier = true
  phase : ∀ e ∈ pool.threads, PhaseOk e.kind e.phase pool.shared

variable {s s' : Stores} {e e' : Executor} {kind : Kind} {phase phase' : Phase} {call : Call}
  {calls : List Call} {attempt : Attempt} {x : LifecycleMove}

/-- What an executor knows is about the selections and a row that is there. -/
theorem PhaseOk.congr (h : PhaseOk kind phase s) (hpostgres : s'.postgres = s.postgres)
    (hcollection : s'.collection = s.collection)
    (hrow : ∀ row, s.row = some row → s'.row = some row) : PhaseOk kind phase s' := by
  cases phase with
  | recoverSnapshot found =>
    obtain ⟨row, hfound, hstate⟩ := h
    exact ⟨row, hrow row hfound, hstate⟩
  | recoverWrite found steady =>
    obtain ⟨⟨row, hfound, hstate⟩, hsteady⟩ := h
    exact ⟨⟨row, hrow row hfound, hstate⟩, hpostgres ▸ hsteady⟩
  | recoverRead =>
    obtain ⟨row, hfound, hstate⟩ := h
    exact ⟨row, hrow row hfound, hpostgres ▸ hstate⟩
  | authority => exact hpostgres.trans h
  | beginTransition => exact hpostgres.trans h
  | running calls attempt =>
    exact
      { h with
        postgres := hpostgres.trans h.postgres
        collection := fun hmoved => hcollection.trans (h.collection hmoved) }
  | aborting call attempt =>
    exact
      { h with
        postgres := fun hcall => hpostgres.trans (h.postgres hcall)
        collection := fun hkind hcall => hcollection.trans (h.collection hkind hcall) }
  | snapshot => trivial
  | profile postgres => trivial
  | state postgres => trivial
  | ensureRow => trivial
  | barrier => trivial
  | recoverState => trivial
  | recoverEnsure => trivial
  | finished => trivial

/-! ## The calls of a transition -/

theorem nodup_tails : ∀ kind : Kind, ∀ calls ∈ kind.calls.tails, calls.Nodup := by
  intro kind
  cases kind <;> decide

/-- A cutover moves the collection first, a rollback PostgreSQL. -/
theorem flip_after_ensure :
    ∀ calls ∈ Kind.cutover.calls.tails, calls.head? = some .flipActiveVersion →
      Call.ensureLexicalConfig ∉ calls := by
  decide

theorem ensure_after_flip :
    ∀ calls ∈ Kind.rollback.calls.tails, calls.head? = some .ensureLexicalConfig →
      Call.flipActiveVersion ∉ calls := by
  decide

theorem runningOk_start (hpostgres : s.postgres = kind.origin) (hservable : Servable s)
    (epoch token : Nat) (hsame : s'.postgres = s.postgres) (hcollection : s'.collection = s.collection) :
    RunningOk kind kind.calls ⟨epoch, token, false, false, false, false⟩ s' where
  remaining := by cases kind <;> decide
  pgFlipped := by cases kind <;> rfl
  pgMoved := rfl
  collectionMoved := by cases kind <;> rfl
  postgres := hsame.trans hpostgres
  collection hmoved := by
    rcases hmoved with rfl | hmoved
    · exact hcollection.trans (hservable hpostgres)
    · cases hmoved

theorem perform_selections {s' : Stores} (h : call.perform s kind attempt = some s') :
    (call = .flipActiveVersion ∧ s.postgres = kind.origin ∧ s'.postgres = kind.target ∧
        s'.collection = s.collection) ∨
      (call = .ensureLexicalConfig ∧ s'.postgres = s.postgres ∧ s'.collection = kind.target) ∨
      (call ≠ .flipActiveVersion ∧ call ≠ .ensureLexicalConfig ∧ s'.postgres = s.postgres ∧
        s'.collection = s.collection) := by
  cases call with
  | flipActiveVersion =>
    simp only [Call.perform, Stores.flipActiveVersion] at h
    split at h
    · rename_i horigin
      cases h
      exact .inl ⟨rfl, horigin, rfl, rfl⟩
    · cases h
  | ensureLexicalConfig =>
    cases h
    exact .inr (.inl ⟨rfl, rfl, rfl⟩)
  | finishTransition =>
    simp only [Call.perform, Stores.settle] at h
    split at h
    · split at h
      · cases h
        exact .inr (.inr ⟨nofun, nofun, rfl, rfl⟩)
      · cases h
    · cases h
  | invalidateReceipt =>
    cases h
    exact .inr (.inr ⟨nofun, nofun, rfl, rfl⟩)
  | publishReceipt =>
    cases h
    exact .inr (.inr ⟨nofun, nofun, rfl, rfl⟩)
  | awaitQuiescence =>
    cases h
    exact .inr (.inr ⟨nofun, nofun, rfl, rfl⟩)
  | scanBefore =>
    cases h
    exact .inr (.inr ⟨nofun, nofun, rfl, rfl⟩)
  | scanAfter =>
    cases h
    exact .inr (.inr ⟨nofun, nofun, rfl, rfl⟩)
  | verifyReadiness =>
    cases h
    exact .inr (.inr ⟨nofun, nofun, rfl, rfl⟩)
  | requireReadable =>
    cases h
    exact .inr (.inr ⟨nofun, nofun, rfl, rfl⟩)

theorem after_other (hflip : call ≠ .flipActiveVersion) (hensure : call ≠ .ensureLexicalConfig) :
    attempt.after kind call = attempt ∧ attempt.lose call = attempt := by
  cases call with
  | flipActiveVersion => exact absurd rfl hflip
  | ensureLexicalConfig => exact absurd rfl hensure
  | _ => exact ⟨rfl, rfl⟩

theorem RunningOk.perform (h : RunningOk kind (call :: calls) attempt s)
    (hcall : call.perform s kind attempt = some s') :
    RunningOk kind calls (attempt.after kind call) s' := by
  have hnodup := nodup_tails kind _ h.remaining
  have hnot : call ∉ calls := (List.nodup_cons.mp hnodup).1
  have hremaining : calls ∈ kind.calls.tails :=
    (List.mem_tails ..).mpr ((List.suffix_cons call calls).trans ((List.mem_tails ..).mp h.remaining))
  rcases perform_selections hcall with ⟨rfl, -, hpostgres, hcollection⟩ | ⟨rfl, hpostgres, hcollection⟩ |
    ⟨hflip, hensure, hpostgres, hcollection⟩
  · exact
      { remaining := hremaining
        pgFlipped := by simp [Attempt.after, hnot]
        pgMoved := rfl
        collectionMoved := by simpa [Attempt.after] using h.collectionMoved
        postgres := hpostgres
        collection := fun hmoved => hcollection.trans (h.collection hmoved) }
  · exact
      { remaining := hremaining
        pgFlipped := by simpa [Attempt.after] using h.pgFlipped
        pgMoved := h.pgMoved
        collectionMoved := by simp [Attempt.after, hnot]
        postgres := hpostgres.trans h.postgres
        collection := fun _ => hcollection }
  · rw [(after_other hflip hensure).1]
    exact
      { remaining := hremaining
        pgFlipped := by simpa [hflip.symm] using h.pgFlipped
        pgMoved := h.pgMoved
        collectionMoved := by simpa [hensure.symm] using h.collectionMoved
        postgres := hpostgres.trans h.postgres
        collection := fun hmoved => hcollection.trans (h.collection hmoved) }

/-- A call of a transition that takes effect leaves the selections servable. -/
theorem RunningOk.servable (h : RunningOk kind (call :: calls) attempt s) (hservable : Servable s)
    (hcall : call.perform s kind attempt = some s') : Servable s' := by
  rcases perform_selections hcall with ⟨rfl, -, hpostgres, hcollection⟩ | ⟨rfl, hpostgres, hcollection⟩ |
    ⟨-, -, hpostgres, hcollection⟩
  · cases kind with
    | cutover =>
      have hmoved : attempt.collectionMoved = true := by
        rw [h.collectionMoved, decide_eq_false (flip_after_ensure _ h.remaining rfl)]
        rfl
      intro _
      rw [hcollection, h.collection (.inr hmoved), hmoved]
      rfl
    | rollback =>
      intro hv2
      rw [hpostgres] at hv2
      cases hv2
  · cases kind with
    | cutover => exact fun _ => hcollection
    | rollback =>
      have hmoved : attempt.pgMoved = true := by
        rw [h.pgMoved, h.pgFlipped, decide_eq_false (ensure_after_flip _ h.remaining rfl)]
        rfl
      intro hv2
      rw [hpostgres, h.postgres, hmoved] at hv2
      cases hv2
  · intro hv2
    rw [hcollection]
    exact hservable (hpostgres ▸ hv2)

/-- A call that raises leads to the abort, whether it took effect or not. -/
theorem RunningOk.abort (h : RunningOk kind calls attempt s) :
    AbortingOk kind .snapshot attempt s where
  flipBack := nofun
  snapshot _ hflipped := h.pgMoved.trans hflipped
  cutover hcall := by rcases hcall with hcall | hcall | hcall <;> cases hcall
  postgres _ := h.postgres
  collection hkind _ := h.collection (.inl hkind)

theorem RunningOk.abort_lost (h : RunningOk kind (call :: calls) attempt s)
    (hcall : call.perform s kind attempt = some s') :
    AbortingOk kind .snapshot (attempt.lose call) s' := by
  rcases perform_selections hcall with ⟨rfl, -, hpostgres, hcollection⟩ | ⟨rfl, hpostgres, hcollection⟩ |
    ⟨hflip, hensure, hpostgres, hcollection⟩
  · exact
      { flipBack := nofun
        snapshot := fun _ _ => rfl
        cutover := fun hcall => by rcases hcall with hcall | hcall | hcall <;> cases hcall
        postgres := fun _ => hpostgres
        collection := fun hkind _ => hcollection.trans (h.collection (.inl hkind)) }
  · exact
      { flipBack := nofun
        snapshot := fun _ hflipped => h.pgMoved.trans hflipped
        cutover := fun hcall => by rcases hcall with hcall | hcall | hcall <;> cases hcall
        postgres := fun _ => hpostgres.trans h.postgres
        collection := fun _ _ => hcollection }
  · rw [(@after_other kind _ _ hflip hensure).2]
    exact
      { flipBack := nofun
        snapshot := fun _ hflipped => h.pgMoved.trans hflipped
        cutover := fun hcall => by rcases hcall with hcall | hcall | hcall <;> cases hcall
        postgres := fun _ => hpostgres.trans h.postgres
        collection := fun hkind _ => hcollection.trans (h.collection (.inl hkind)) }

/-! ## One step of an executor -/

theorem revertCollection_cases (kind : Kind) (attempt : Attempt) :
    revertCollection kind attempt = .profile ∧ kind = .cutover ∨
      revertCollection kind attempt = .failTransition := by
  unfold revertCollection
  split
  · rename_i h
    exact .inl ⟨rfl, h.1⟩
  · exact .inr rfl

/-- Nothing is asked of an abort that only settles the row. -/
theorem abortingOk_settle : AbortingOk kind .failTransition attempt s where
  flipBack := nofun
  snapshot := nofun
  cutover hcall := by rcases hcall with hcall | hcall | hcall <;> cases hcall
  postgres hcall := absurd rfl hcall
  collection _ hcall := by rcases hcall with hcall | hcall <;> cases hcall

/-- The part of an abort that takes the collection of a cutover back. -/
theorem abortingOk_collection {abortCall : AbortCall} (hkind : kind = .cutover)
    (hpostgres : s.postgres = if attempt.pgMoved then kind.target else kind.origin)
    (hcall : abortCall = .profile ∨ abortCall = .invalidateReceipt ∨ abortCall = .ensureLexicalConfig) :
    AbortingOk kind abortCall attempt s := by
  subst hkind
  exact
    { flipBack := fun h => by subst h; rcases hcall with h | h | h <;> cases h
      snapshot := fun h => by subst h; rcases hcall with h | h | h <;> cases h
      cutover := fun _ => rfl
      postgres := fun _ => hpostgres
      collection := nofun }

theorem abortingOk_revert {attempt' : Attempt}
    (hpostgres : s.postgres = if attempt'.pgMoved then kind.target else kind.origin) :
    AbortingOk kind (revertCollection kind attempt) attempt' s := by
  rcases revertCollection_cases kind attempt with ⟨heq, hkind⟩ | heq <;> rw [heq]
  · exact abortingOk_collection hkind hpostgres (.inl rfl)
  · exact abortingOk_settle

theorem ensureRow_row {row : LifecycleRow} (h : s.row = some row) : s.ensureRow.row = some row := by
  rw [Stores.ensureRow, h]
  rfl

theorem raised_ok (h : PhaseOk e.kind e.phase s) : PhaseOk e.kind e.phase.raised s := by
  obtain ⟨kind, phase⟩ := e
  cases phase with
  | running calls attempt => exact RunningOk.abort h
  | aborting call attempt => cases call <;> first | exact abortingOk_settle | trivial
  | _ => trivial

/-- What is known after a call that comes off, and after one that took effect and
    raised, and whether the selections are still servable. -/
theorem proceed_ok (h : PhaseOk e.kind e.phase s) (hservable : Servable s)
    (hproceed : e.proceed s = some (s', phase')) :
    PhaseOk e.kind phase' s' ∧ PhaseOk e.kind e.phase.lost s' ∧ (Servable s' ↔ e.blind = false) := by
  obtain ⟨kind, phase⟩ := e
  cases phase with
  | finished => cases hproceed
  | snapshot =>
    cases hproceed
    exact ⟨trivial, trivial, iff_of_true hservable (by cases kind <;> rfl)⟩
  | profile postgres =>
    simp only [Executor.proceed] at hproceed
    split at hproceed <;> cases hproceed <;>
      exact ⟨trivial, trivial, iff_of_true hservable (by cases kind <;> rfl)⟩
  | state postgres =>
    simp only [Executor.proceed] at hproceed
    split at hproceed
    · cases hproceed
      refine ⟨?_, trivial, iff_of_true hservable rfl⟩
      split <;> trivial
    · split at hproceed <;> cases hproceed <;>
        exact ⟨trivial, trivial, iff_of_true hservable rfl⟩
  | ensureRow =>
    cases hproceed
    exact ⟨trivial, trivial, iff_of_true hservable (by cases kind <;> rfl)⟩
  | barrier =>
    simp only [Executor.proceed] at hproceed
    split at hproceed
    · cases hproceed
    · cases hproceed
      exact ⟨trivial, trivial, iff_of_true hservable (by cases kind <;> rfl)⟩
  | recoverState =>
    simp only [Executor.proceed] at hproceed
    split at hproceed
    · rename_i row hrow
      cases hproceed
      exact ⟨⟨row, hrow, rfl⟩, trivial, iff_of_true hservable (by cases kind <;> rfl)⟩
    · cases hproceed
      exact ⟨trivial, trivial, iff_of_true hservable (by cases kind <;> rfl)⟩
  | recoverEnsure =>
    cases hproceed
    exact ⟨trivial, trivial, iff_of_true hservable (by cases kind <;> rfl)⟩
  | recoverSnapshot found =>
    obtain ⟨row, hrow, hstate⟩ := h
    cases hproceed
    refine ⟨?_, trivial, iff_of_true hservable (by cases kind <;> rfl)⟩
    split
    · rename_i hsteady
      exact ⟨row, hrow, hstate.trans hsteady⟩
    · exact ⟨⟨row, hrow, hstate⟩, rfl⟩
  | recoverWrite found steady =>
    obtain ⟨⟨row, hrow, hstate⟩, hsteady⟩ := h
    simp only [Executor.proceed, Stores.recover, hrow, hstate, if_true, Option.map_some] at hproceed
    cases hproceed
    exact ⟨⟨_, rfl, hsteady⟩, trivial, iff_of_true hservable (by cases kind <;> rfl)⟩
  | recoverRead =>
    obtain ⟨row, hrow, hstate⟩ := h
    simp only [Executor.proceed, hrow] at hproceed
    split at hproceed
    · rename_i hsteady
      cases hproceed
      refine ⟨?_, trivial, iff_of_true hservable (by cases kind <;> rfl)⟩
      rw [hstate] at hsteady
      cases hpostgres : s.postgres <;> rw [hpostgres] at hsteady <;> cases kind <;>
        first | exact hpostgres | cases hsteady
    · cases hproceed
  | authority =>
    cases hproceed
    exact ⟨h, trivial, iff_of_true hservable (by cases kind <;> rfl)⟩
  | beginTransition =>
    obtain ⟨s₁, hbegin, heq⟩ := Option.map_eq_some_iff.mp hproceed
    cases heq
    obtain ⟨hpostgres, hcollection⟩ : s'.postgres = s.postgres ∧ s'.collection = s.collection := by
      unfold Stores.beginTransition at hbegin
      split at hbegin
      · split at hbegin <;> cases hbegin
        exact ⟨rfl, rfl⟩
      · cases hbegin
        exact ⟨rfl, rfl⟩
    refine ⟨runningOk_start h hservable _ _ hpostgres hcollection, trivial,
      iff_of_true ?_ (by cases kind <;> rfl)⟩
    rw [Servable, hpostgres, hcollection]
    exact hservable
  | running calls attempt =>
    cases calls with
    | nil => cases hproceed
    | cons call calls =>
      obtain ⟨s₁, hperform, heq⟩ := Option.map_eq_some_iff.mp hproceed
      cases heq
      have hservable' := RunningOk.servable h hservable hperform
      refine ⟨?_, RunningOk.abort_lost h hperform, iff_of_true hservable' (by cases kind <;> rfl)⟩
      split
      · trivial
      · exact RunningOk.perform h hperform
  | aborting abortCall attempt =>
    cases abortCall with
    | snapshot =>
      cases hproceed
      refine ⟨?_, abortingOk_settle, iff_of_true hservable (by cases kind <;> rfl)⟩
      split
      · rename_i hflipped
        exact
          { flipBack := fun _ => h.snapshot rfl hflipped
            snapshot := nofun
            cutover := fun hcall => by rcases hcall with hcall | hcall | hcall <;> cases hcall
            postgres := fun _ => h.postgres nofun
            collection := fun hkind _ => h.collection hkind (.inl rfl) }
      · exact abortingOk_revert (h.postgres nofun)
    | flipBack =>
      have hpostgres := h.postgres nofun
      rw [h.flipBack rfl] at hpostgres
      simp only [Executor.proceed, Stores.flipActiveVersion, hpostgres, if_true, Option.map_some] at hproceed
      cases hproceed
      refine ⟨abortingOk_revert rfl, abortingOk_settle, ?_⟩
      cases kind with
      | cutover => exact iff_of_true nofun rfl
      | rollback =>
        have hcollection := h.collection rfl (.inr rfl)
        constructor
        · intro hafter
          have hv2 : s.collection = .bm25V2 := hafter rfl
          rw [hcollection] at hv2
          cases hmoved : attempt.collectionMoved with
          | false => exact hmoved
          | true => rw [hmoved] at hv2; cases hv2
        · intro hblind _
          have hmoved : attempt.collectionMoved = false := hblind
          rw [hmoved] at hcollection
          exact hcollection
    | profile =>
      cases hproceed
      refine ⟨?_, abortingOk_settle, iff_of_true hservable (by cases kind <;> rfl)⟩
      split
      · exact abortingOk_collection (h.cutover (.inl rfl)) (h.postgres nofun) (.inr (.inl rfl))
      · exact abortingOk_settle
    | invalidateReceipt =>
      cases hproceed
      refine ⟨abortingOk_collection (h.cutover (.inr (.inl rfl))) (h.postgres nofun) (.inr (.inr rfl)),
        abortingOk_settle, iff_of_true hservable (by cases kind <;> rfl)⟩
    | ensureLexicalConfig =>
      cases hproceed
      refine ⟨abortingOk_settle, abortingOk_settle, ?_⟩
      obtain rfl := h.cutover (.inr (.inr rfl))
      have hpostgres := h.postgres nofun
      constructor
      · intro hafter
        cases hmoved : attempt.pgMoved with
        | false => exact hmoved
        | true =>
          rw [hmoved] at hpostgres
          cases hafter hpostgres
      · intro hblind hv2
        have hmoved : attempt.pgMoved = false := hblind
        rw [hmoved] at hpostgres
        cases hpostgres.symm.trans hv2
    | failTransition =>
      obtain ⟨s₁, hsettle, heq⟩ := Option.map_eq_some_iff.mp hproceed
      cases heq
      refine ⟨trivial, trivial, iff_of_true ?_ (by cases kind <;> rfl)⟩
      unfold Stores.settle at hsettle
      split at hsettle
      · split at hsettle <;> cases hsettle
        exact hservable
      · cases hsettle

/-- What an executor goes on to, and with which stores, before it may give the barrier
    back. -/
theorem act_cases {outcome : Outcome} (h : e.act s outcome = some (s', e')) :
    ∃ s₁ phase, e.enter s₁ phase = (s', e') ∧
      ((outcome = .done ∧ e.proceed s = some (s₁, phase)) ∨
        (outcome = .lost ∧ phase = e.phase.lost ∧ ∃ phase', e.proceed s = some (s₁, phase')) ∨
        s₁ = s ∧ ((outcome ≠ .lost ∧ (outcome = .done → e.proceed s = none) ∧
          phase = e.phase.raised) ∨ outcome = .crash ∧ phase = .finished)) := by
  unfold Executor.act at h
  split at h
  · cases h
  · split at h
    · rename_i s₁ phase hproceed
      exact ⟨s₁, phase, Option.some.inj h, .inl ⟨rfl, hproceed⟩⟩
    · rename_i hproceed
      exact ⟨s, _, Option.some.inj h, .inr (.inr ⟨rfl, .inl ⟨nofun, fun _ => hproceed, rfl⟩⟩)⟩
  · exact ⟨s, _, Option.some.inj h, .inr (.inr ⟨rfl, .inl ⟨nofun, nofun, rfl⟩⟩)⟩
  · obtain ⟨⟨s₁, phase'⟩, hproceed, henter⟩ := Option.map_eq_some_iff.mp h
    exact ⟨s₁, _, henter, .inr (.inl ⟨rfl, rfl, phase', hproceed⟩)⟩
  · exact ⟨s, _, Option.some.inj h, .inr (.inr ⟨rfl, .inr ⟨rfl, rfl⟩⟩)⟩

theorem enter_eq (h : e.enter s phase = (s', e')) :
    e' = ⟨e.kind, phase⟩ ∧ s'.postgres = s.postgres ∧ s'.collection = s.collection ∧
      s'.row = s.row ∧
      (s'.barrier = s.barrier ∨ e.phase.critical = true ∧ phase = .finished) := by
  unfold Executor.enter at h
  obtain ⟨rfl, rfl⟩ := Prod.mk.inj h
  split
  · rename_i hleaves
    exact ⟨rfl, rfl, rfl, rfl, .inr hleaves⟩
  · exact ⟨rfl, rfl, rfl, rfl, .inl rfl⟩

theorem blind_of_fails (h : PhaseOk e.kind e.phase s) (hblind : e.blind = true) :
    ∃ next, e.proceed s = some next := by
  obtain ⟨kind, phase⟩ := e
  unfold Executor.blind at hblind
  split at hblind
  · rename_i attempt hkind hphase
    simp only at hkind hphase
    subst hkind hphase
    have hpostgres := AbortingOk.postgres h nofun
    rw [AbortingOk.flipBack h rfl] at hpostgres
    simp [Executor.proceed, Stores.flipActiveVersion, hpostgres]
  · rename_i attempt hkind hphase
    simp only at hkind hphase
    subst hkind hphase
    exact ⟨_, rfl⟩
  · cases hblind

/-- The executor still knows what it has done, and the selections are servable unless
    the step was a blind compensation that took effect. -/
theorem act_ok {outcome : Outcome} (h : PhaseOk e.kind e.phase s) (hservable : Servable s)
    (hact : e.act s outcome = some (s', e')) :
    PhaseOk e'.kind e'.phase s' ∧
      (Servable s' ↔ ¬ ((outcome = .done ∨ outcome = .lost) ∧ e.blind = true)) := by
  obtain ⟨s₁, phase, henter, hcases⟩ := act_cases hact
  obtain ⟨rfl, hpostgres, hcollection, hrow, -⟩ := enter_eq henter
  have hsame : Servable s' ↔ Servable s₁ := by rw [Servable, Servable, hpostgres, hcollection]
  have hcongr : PhaseOk e.kind phase s₁ → PhaseOk e.kind phase s' := fun hok =>
    hok.congr hpostgres hcollection fun row hfound => hrow.trans hfound
  rcases hcases with ⟨rfl, hproceed⟩ | ⟨rfl, rfl, phase', hproceed⟩ |
    ⟨rfl, ⟨hlost, hdone, rfl⟩ | ⟨rfl, rfl⟩⟩
  · obtain ⟨hok, -, hiff⟩ := proceed_ok h hservable hproceed
    exact ⟨hcongr hok, hsame.trans (hiff.trans (by simp))⟩
  · obtain ⟨-, hok, hiff⟩ := proceed_ok h hservable hproceed
    exact ⟨hcongr hok, hsame.trans (hiff.trans (by simp))⟩
  · refine ⟨hcongr (raised_ok h), iff_of_true (hsame.mpr hservable) ?_⟩
    rintro ⟨rfl | rfl, hblind⟩
    · obtain ⟨next, hproceed⟩ := blind_of_fails h hblind
      rw [hdone rfl] at hproceed
      cases hproceed
    · exact hlost rfl
  · exact ⟨trivial, iff_of_true (hsame.mpr hservable) (by simp)⟩

/-! ## The barrier -/

theorem phaseOk_outside (h : phase.critical = false) : PhaseOk kind phase s := by
  cases phase <;> trivial

/-- Past the barrier no call but the last gives it back. -/
theorem proceed_barrier (hcritical : e.phase.critical = true)
    (h : e.proceed s = some (s', phase')) : s'.barrier = s.barrier := by
  obtain ⟨kind, phase⟩ := e
  cases phase with
  | snapshot => cases hcritical
  | profile postgres => cases hcritical
  | state postgres => cases hcritical
  | ensureRow => cases hcritical
  | barrier => cases hcritical
  | finished => cases h
  | recoverState =>
    simp only [Executor.proceed] at h
    split at h <;> cases h <;> rfl
  | recoverEnsure => cases h; rfl
  | recoverSnapshot found => cases h; rfl
  | recoverWrite found steady =>
    obtain ⟨s₁, hrecover, heq⟩ := Option.map_eq_some_iff.mp h
    cases heq
    unfold Stores.recover at hrecover
    split at hrecover
    · split at hrecover <;> cases hrecover
      rfl
    · cases hrecover
  | recoverRead =>
    simp only [Executor.proceed] at h
    split at h
    · split at h <;> cases h
      rfl
    · cases h
  | authority => cases h; rfl
  | beginTransition =>
    obtain ⟨s₁, hbegin, heq⟩ := Option.map_eq_some_iff.mp h
    cases heq
    unfold Stores.beginTransition at hbegin
    split at hbegin
    · split at hbegin <;> cases hbegin
      rfl
    · cases hbegin
      rfl
  | running calls attempt =>
    cases calls with
    | nil => cases h
    | cons call calls =>
      obtain ⟨s₁, hperform, heq⟩ := Option.map_eq_some_iff.mp h
      cases heq
      cases call <;> simp only [Call.perform, Stores.flipActiveVersion, Stores.settle] at hperform <;>
        (try split at hperform) <;> (try split at hperform) <;> cases hperform <;> rfl
  | aborting abortCall attempt =>
    cases abortCall with
    | flipBack =>
      obtain ⟨s₁, hflip, heq⟩ := Option.map_eq_some_iff.mp h
      cases heq
      unfold Stores.flipActiveVersion at hflip
      split at hflip <;> cases hflip
      rfl
    | failTransition =>
      obtain ⟨s₁, hsettle, heq⟩ := Option.map_eq_some_iff.mp h
      cases heq
      unfold Stores.settle at hsettle
      split at hsettle
      · split at hsettle <;> cases hsettle
        rfl
      · cases hsettle
    | snapshot => cases h; rfl
    | profile => cases h; rfl
    | invalidateReceipt => cases h; rfl
    | ensureLexicalConfig => cases h; rfl

/-- Before the barrier a call leaves the selections, and takes the barrier only when it
    is free. -/
theorem proceed_outside (houtside : e.phase.critical = false) (h : e.proceed s = some (s', phase')) :
    s'.postgres = s.postgres ∧ s'.collection = s.collection ∧
      (∀ row, s.row = some row → s'.row = some row) ∧
      (s'.barrier = s.barrier ∧ phase'.critical = false ∨ s.barrier = false ∧ s'.barrier = true) := by
  obtain ⟨kind, phase⟩ := e
  cases phase with
  | snapshot => cases h; exact ⟨rfl, rfl, fun _ => id, .inl ⟨rfl, rfl⟩⟩
  | profile postgres =>
    simp only [Executor.proceed] at h
    split at h <;> cases h <;> exact ⟨rfl, rfl, fun _ => id, .inl ⟨rfl, rfl⟩⟩
  | state postgres =>
    simp only [Executor.proceed] at h
    split at h
    · cases h
      refine ⟨rfl, rfl, fun _ => id, .inl ⟨rfl, ?_⟩⟩
      split <;> rfl
    · split at h <;> cases h <;> exact ⟨rfl, rfl, fun _ => id, .inl ⟨rfl, rfl⟩⟩
  | ensureRow => cases h; exact ⟨rfl, rfl, fun _ => ensureRow_row, .inl ⟨rfl, rfl⟩⟩
  | barrier =>
    simp only [Executor.proceed] at h
    split at h
    · cases h
    · rename_i hfree
      cases h
      exact ⟨rfl, rfl, fun _ => id, .inr ⟨Bool.eq_false_iff.mpr hfree, rfl⟩⟩
  | finished => cases h
  | _ => cases houtside

theorem critical_raised (houtside : phase.critical = false) : phase.raised = .finished := by
  cases phase <;> first | rfl | cases houtside

theorem critical_lost (houtside : phase.critical = false) : phase.lost = .finished := by
  cases phase <;> first | rfl | cases houtside

/-- An executor that is past the barrier after a step has it: it was past it before, or
    the barrier was free. -/
theorem act_critical {outcome : Outcome} (hact : e.act s outcome = some (s', e'))
    (hbarrier : e.phase.critical = true → s.barrier = true) (hcritical : e'.phase.critical = true) :
    s'.barrier = true ∧ (e.phase.critical = true ∨ s.barrier = false) := by
  obtain ⟨s₁, phase, henter, hcases⟩ := act_cases hact
  obtain ⟨rfl, -, -, -, hsame | ⟨-, rfl⟩⟩ := enter_eq henter
  · cases hwas : e.phase.critical with
    | true =>
      refine ⟨hsame.trans ?_, .inl rfl⟩
      rcases hcases with ⟨-, hproceed⟩ | ⟨-, -, phase', hproceed⟩ | ⟨rfl, -⟩
      · exact (proceed_barrier hwas hproceed).trans (hbarrier hwas)
      · exact (proceed_barrier hwas hproceed).trans (hbarrier hwas)
      · exact hbarrier hwas
    | false =>
      rcases hcases with ⟨-, hproceed⟩ | ⟨-, rfl, -⟩ | ⟨-, ⟨-, -, rfl⟩ | ⟨-, rfl⟩⟩
      · obtain ⟨-, -, -, ⟨-, houtside⟩ | ⟨hfree, htaken⟩⟩ := proceed_outside hwas hproceed
        · rw [houtside] at hcritical
          cases hcritical
        · exact ⟨hsame.trans htaken, .inr hfree⟩
      · rw [critical_lost hwas] at hcritical
        cases hcritical
      · rw [critical_raised hwas] at hcritical
        cases hcritical
      · cases hcritical
  · cases hcritical

/-- An executor before the barrier leaves what another one past it knows, and takes the
    barrier only when it is free. -/
theorem act_outside {outcome : Outcome} (hact : e.act s outcome = some (s', e'))
    (houtside : e.phase.critical = false) :
    s'.postgres = s.postgres ∧ s'.collection = s.collection ∧
      (∀ row, s.row = some row → s'.row = some row) ∧
      (s'.barrier = s.barrier ∨ s.barrier = false ∧ s'.barrier = true) := by
  obtain ⟨s₁, phase, henter, hcases⟩ := act_cases hact
  obtain ⟨-, hpostgres, hcollection, hrow, hsame | ⟨hcritical, -⟩⟩ := enter_eq henter
  · rw [hpostgres, hcollection, hrow, hsame]
    rcases hcases with ⟨-, hproceed⟩ | ⟨-, -, phase', hproceed⟩ | ⟨rfl, -⟩
    · obtain ⟨h₁, h₂, h₃, ⟨h₄, -⟩ | h₄⟩ := proceed_outside houtside hproceed
      · exact ⟨h₁, h₂, h₃, .inl h₄⟩
      · exact ⟨h₁, h₂, h₃, .inr h₄⟩
    · obtain ⟨h₁, h₂, h₃, ⟨h₄, -⟩ | h₄⟩ := proceed_outside houtside hproceed
      · exact ⟨h₁, h₂, h₃, .inl h₄⟩
      · exact ⟨h₁, h₂, h₃, .inr h₄⟩
    · exact ⟨rfl, rfl, fun _ => id, .inl rfl⟩
  · rw [houtside] at hcritical
    cases hcritical

/-- One executor at most is past the barrier, and holds it. -/
structure Exclusive (pool : Pool Stores Executor) : Prop where
  one : ∀ (i j : Nat) (e f : Executor), pool.threads[i]? = some e → pool.threads[j]? = some f →
    e.phase.critical = true → f.phase.critical = true → i = j
  held : ∀ e ∈ pool.threads, e.phase.critical = true → pool.shared.barrier = true

theorem exclusive_atRest {postgres collection : Selection} {receipt : ReceiptStatus}
    {row : Option LifecycleRow} : Exclusive (Stores.atRest postgres collection receipt row) where
  one _ _ _ _ hi := by cases hi
  held _ he := by cases he

theorem Exclusive.spawn (hex : Exclusive x.pre) (houtside : e.phase.critical = false)
    (hpost : x.post = ⟨x.pre.shared, x.pre.threads ++ [e]⟩) : Exclusive x.post := by
  rw [hpost]
  constructor
  · intro i j e₁ e₂ hi hj hcritical₁ hcritical₂
    rcases Pool.getElem?_push_iff.mp hi with hi | ⟨-, rfl⟩
    · rcases Pool.getElem?_push_iff.mp hj with hj | ⟨-, rfl⟩
      · exact hex.one i j e₁ e₂ hi hj hcritical₁ hcritical₂
      · rw [houtside] at hcritical₂
        cases hcritical₂
    · rw [houtside] at hcritical₁
      cases hcritical₁
  · intro f hf hcritical
    rcases List.mem_append.mp hf with hf | hf
    · exact hex.held f hf hcritical
    · rw [List.mem_singleton.mp hf, houtside] at hcritical
      cases hcritical

/-- Beside an executor past the barrier another one was and stays before it. -/
theorem Exclusive.beside {i j : Nat} {outcome : Outcome} {f : Executor} (hex : Exclusive x.pre)
    (hacts : Pool.Acts lifecycle x i outcome e e') (hij : i ≠ j) (hj : x.pre.threads[j]? = some f)
    (hf : f.phase.critical = true) : e.phase.critical = false ∧ e'.phase.critical = false := by
  have hact : e.act x.pre.shared outcome = some (x.post.shared, e') := hacts.act
  have houtside : e.phase.critical = false := by
    cases hwas : e.phase.critical with
    | false => rfl
    | true => exact absurd (hex.one i j e f hacts.found hj hwas hf) hij
  refine ⟨houtside, ?_⟩
  cases his : e'.phase.critical with
  | false => rfl
  | true =>
    rcases (act_critical hact (hex.held e (List.mem_of_getElem? hacts.found)) his).2 with hwas | hfree
    · rw [houtside] at hwas
      cases hwas
    · rw [hex.held f (List.mem_of_getElem? hj) hf] at hfree
      cases hfree

/-- What another executor past the barrier finds after a step. -/
theorem Exclusive.frame {i j : Nat} {outcome : Outcome} {f : Executor} (hex : Exclusive x.pre)
    (hacts : Pool.Acts lifecycle x i outcome e e') (hij : i ≠ j) (hj : x.pre.threads[j]? = some f)
    (hf : f.phase.critical = true) :
    x.post.shared.postgres = x.pre.shared.postgres ∧
      x.post.shared.collection = x.pre.shared.collection ∧
      (∀ row, x.pre.shared.row = some row → x.post.shared.row = some row) ∧
      x.post.shared.barrier = true := by
  have hheld := hex.held f (List.mem_of_getElem? hj) hf
  obtain ⟨hpostgres, hcollection, hrow, hsame | ⟨hfree, -⟩⟩ :=
    act_outside hacts.act (hex.beside hacts hij hj hf).1
  · exact ⟨hpostgres, hcollection, hrow, hsame.trans hheld⟩
  · rw [hheld] at hfree
    cases hfree

/-- A thread after a step is the one that made it, or was there before. -/
theorem thread_of_acts {i j : Nat} {outcome : Outcome} {f : Executor}
    (hacts : Pool.Acts lifecycle x i outcome e e') (hj : x.post.threads[j]? = some f) :
    i = j ∧ e' = f ∨ i ≠ j ∧ x.pre.threads[j]? = some f :=
  (Pool.getElem?_set_iff hacts.found).mp (hacts.threads ▸ hj)

theorem Exclusive.acts {i : Nat} {outcome : Outcome} (hex : Exclusive x.pre)
    (hacts : Pool.Acts lifecycle x i outcome e e') : Exclusive x.post := by
  have hcritical := act_critical hacts.act (hex.held e (List.mem_of_getElem? hacts.found))
  constructor
  · intro j k f g hj hk hf hg
    rcases thread_of_acts hacts hj with ⟨rfl, rfl⟩ | ⟨hij, hj⟩
    · rcases thread_of_acts hacts hk with ⟨rfl, -⟩ | ⟨hik, hk⟩
      · rfl
      · rw [(hex.beside hacts hik hk hg).2] at hf
        cases hf
    · rcases thread_of_acts hacts hk with ⟨rfl, rfl⟩ | ⟨-, hk⟩
      · rw [(hex.beside hacts hij hj hf).2] at hg
        cases hg
      · exact hex.one j k f g hj hk hf hg
  · intro f hf hfcritical
    obtain ⟨j, hj⟩ := List.mem_iff_getElem?.mp hf
    rcases thread_of_acts hacts hj with ⟨rfl, rfl⟩ | ⟨hij, hj⟩
    · exact (hcritical hfcritical).1
    · exact (hex.frame hacts hij hj hfcritical).2.2.2

/-- What executors past the barrier know stays known when the one that makes the step
    knows it afterwards. -/
theorem Exclusive.forall_acts {K : Executor → Stores → Prop}
    (houtside : ∀ (f : Executor) (s : Stores), f.phase.critical = false → K f s)
    (hframe : ∀ (f : Executor) (s s' : Stores), s'.postgres = s.postgres →
      s'.collection = s.collection → (∀ row, s.row = some row → s'.row = some row) → K f s → K f s')
    {i : Nat} {outcome : Outcome} (hex : Exclusive x.pre)
    (hacts : Pool.Acts lifecycle x i outcome e e') (h : ∀ f ∈ x.pre.threads, K f x.pre.shared)
    (hself : K e' x.post.shared) : ∀ f ∈ x.post.threads, K f x.post.shared := by
  intro f hf
  obtain ⟨j, hj⟩ := List.mem_iff_getElem?.mp hf
  rcases thread_of_acts hacts hj with ⟨rfl, rfl⟩ | ⟨hij, hj⟩
  · exact hself
  · cases hfcritical : f.phase.critical with
    | false => exact houtside f _ hfcritical
    | true =>
      obtain ⟨hpostgres, hcollection, hrow, -⟩ := hex.frame hacts hij hj hfcritical
      exact hframe f _ _ hpostgres hcollection hrow (h f (List.mem_of_getElem? hj))

/-! ## Every run -/

theorem StoresOk.exclusive {pool : Pool Stores Executor} (hok : StoresOk pool) : Exclusive pool :=
  ⟨hok.one, hok.held⟩

theorem storesOk_spawn (hok : StoresOk x.pre) (hphase : e.phase = .snapshot)
    (hpost : x.post = ⟨x.pre.shared, x.pre.threads ++ [e]⟩) : StoresOk x.post := by
  have houtside : e.phase.critical = false := by rw [hphase]; rfl
  obtain ⟨hone, hheld⟩ := hok.exclusive.spawn houtside hpost
  refine ⟨hone, hheld, ?_⟩
  rw [hpost]
  intro f hf
  rcases List.mem_append.mp hf with hf | hf
  · exact hok.phase f hf
  · exact phaseOk_outside (List.mem_singleton.mp hf ▸ houtside)

theorem storesOk_acts {i : Nat} {outcome : Outcome} (hok : StoresOk x.pre)
    (hservable : Servable x.pre.shared) (hacts : Pool.Acts lifecycle x i outcome e e') :
    StoresOk x.post := by
  have hself := (act_ok (hok.phase e (List.mem_of_getElem? hacts.found)) hservable hacts.act).1
  obtain ⟨hone, hheld⟩ := hok.exclusive.acts hacts
  exact ⟨hone, hheld, hok.exclusive.forall_acts (fun _ _ => phaseOk_outside)
    (fun _ _ _ hpostgres hcollection hrow hphase => hphase.congr hpostgres hcollection hrow)
    hacts hok.phase hself⟩

theorem storesOk_step (hx : lifecycle.machine.Makes x) (hok : StoresOk x.pre)
    (hservable : Servable x.pre.shared) : StoresOk x.post := by
  rcases Pool.makes_cases hx with ⟨e, -, hadmits, hpost⟩ | ⟨i, outcome, e, e', hacts⟩ | ⟨event, -⟩
  · exact storesOk_spawn hok (of_decide_eq_true hadmits) hpost
  · exact storesOk_acts hok hservable hacts
  · exact event.elim

/-- A step leaves the selections servable exactly when it is no blind compensation. -/
theorem servable_step (hx : lifecycle.machine.Makes x) (hok : StoresOk x.pre)
    (hservable : Servable x.pre.shared) :
    Servable x.post.shared ↔ compensatesBlindly x = false := by
  rcases Pool.makes_cases hx with ⟨e, hinput, -, hpost⟩ | ⟨i, outcome, e, e', hacts⟩ | ⟨event, -⟩
  · refine iff_of_true (by rw [hpost]; exact hservable) ?_
    rw [compensatesBlindly, hinput]
  · rw [(act_ok (hok.phase e (List.mem_of_getElem? hacts.found)) hservable hacts.act).2]
    rw [compensatesBlindly, hacts.input]
    cases outcome <;> simp [hacts.found]
  · exact event.elim

theorem storesOk_atRest {postgres collection : Selection} {receipt : ReceiptStatus}
    {row : Option LifecycleRow} : StoresOk (Stores.atRest postgres collection receipt row) where
  one := exclusive_atRest.one
  held := exclusive_atRest.held
  phase _ he := by cases he

/-- Along a run PostgreSQL never selects v2 without the collection exactly when no
    abort compensates blindly. -/
theorem servable_iff {postgres collection : Selection} {receipt : ReceiptStatus}
    {row : Option LifecycleRow} {tr : List LifecycleMove} {final : Pool Stores Executor}
    (hservable : postgres = .bm25V2 → collection = .bm25V2)
    (h : Run lifecycle.machine (Stores.atRest postgres collection receipt row) tr final) :
    (∀ x ∈ tr, Servable x.post.shared) ↔ ∀ x ∈ tr, compensatesBlindly x = false :=
  Run.forall_iff (P := StoresOk) (Q := fun pool => Servable pool.shared)
    (fun _ hx hok hservable => storesOk_step hx hok hservable)
    (fun _ hx hok hservable => servable_step hx hok hservable) h
    storesOk_atRest hservable

/-- A cutover from start to end. -/
theorem servable_iff_cutover :
    ∃ tr final, Run lifecycle.machine (Stores.atRest .lexicalV1 .lexicalV1 .absent none) tr final ∧
      final.shared.postgres = .bm25V2 ∧
      ((∀ x ∈ tr, Servable x.post.shared) ↔ ∀ x ∈ tr, compensatesBlindly x = false) := by
  obtain ⟨tr, final, hexec, hpostgres⟩ :
      ∃ tr final, lifecycle.machine.exec (Stores.atRest .lexicalV1 .lexicalV1 .absent none)
          (.spawn ⟨.cutover, .snapshot⟩ :: List.replicate 19 (.step 0 .done)) = some (tr, final) ∧
        final.shared.postgres = .bm25V2 :=
    ⟨_, _, rfl, rfl⟩
  have hrun := Machine.run_of_exec hexec
  exact ⟨tr, final, hrun, hpostgres, servable_iff (by decide) hrun⟩

/-- A rollback moves PostgreSQL and the collection, the collection cannot be read back,
    and the abort takes PostgreSQL to v2 again. -/
theorem rollback_leaves_split :
    ¬ ∀ (postgres collection : Selection) (receipt : ReceiptStatus) (row : Option LifecycleRow)
      (tr : List LifecycleMove) (final : Pool Stores Executor),
      (postgres = .bm25V2 → collection = .bm25V2) →
      Run lifecycle.machine (Stores.atRest postgres collection receipt row) tr final →
      ∀ x ∈ tr, Servable x.post.shared := by
  intro h
  obtain ⟨tr, final, hexec, x, hx, hpostgres, hcollection⟩ :
      ∃ tr final, lifecycle.machine.exec
          (Stores.atRest .bm25V2 .bm25V2 .complete (some ⟨.activeV2, 2, none⟩))
          (.spawn ⟨.rollback, .snapshot⟩ ::
            (List.replicate 12 (.step 0 .done) ++
              [.step 0 .refused, .step 0 .done, .step 0 .done])) = some (tr, final) ∧
        ∃ x ∈ tr, x.post.shared.postgres = .bm25V2 ∧ x.post.shared.collection = .lexicalV1 :=
    ⟨_, _, rfl, _, List.mem_of_getLast? rfl, rfl, rfl⟩
  have hsplit := h _ _ _ _ tr final (fun _ => rfl) (Machine.run_of_exec hexec) x hx hpostgres
  rw [hcollection] at hsplit
  cases hsplit

end AiPlatform.Knowledge
