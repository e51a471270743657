/-
  AiPlatform.Dispatch.AdmissionWindow

  Any number of gateways run the capacity scripts in any order.

  No key ever holds more unexpired leases than its limit, a rejected acquire adds
  nothing, and a lease that has expired or was released stays gone until it is
  acquired again: no renew brings it back.
-/

import AiPlatform.Dispatch.CapacityScripts

namespace AiPlatform.Dispatch

open Transition Redis

/-! ## The store and its callers -/

inductive Script where
  | acquire
  | renew
  | release
  deriving DecidableEq

/-- A script with its arguments, run at `now`. -/
structure ScriptCall where
  script : Script
  now : Nat
  ttl : LeaseTtl
  member : String
  keys : LeaseKeys

def LeaseKeys.holds (keys : LeaseKeys) (key : String) : Prop := key = keys.shared ∨ key = keys.tenant

inductive ScriptReply where
  | counts (shared tenant : Int)
  | result (value : Int)
  deriving DecidableEq

/-- The gateway raises `CapacityRejected` on these counts. -/
def ScriptReply.rejected (limits : String → Nat) (keys : LeaseKeys) : ScriptReply → Prop
  | counts shared tenant => (limits keys.shared : Int) ≤ shared ∨ (limits keys.tenant : Int) ≤ tenant
  | result _ => False

structure SharedStore where
  now : Nat
  db : CapacityDb

def SharedStore.run (limits : String → Nat) (call : ScriptCall) (db : CapacityDb) :
    ScriptReply × CapacityDb :=
  match call.script with
  | .acquire =>
      let ((shared, tenant), db) := acquirePair call.now (call.now + call.ttl) call.member call.ttl
        call.keys (limits call.keys.shared) (limits call.keys.tenant) db
      (.counts shared tenant, db)
  | .renew =>
      let (value, db) := Dispatch.renew call.now (call.now + call.ttl) call.member call.ttl call.keys db
      (.result value, db)
  | .release =>
      let (value, db) := Dispatch.release call.now call.member call.keys db
      (.result value, db)

/-- The scripts run one after another, with a clock that does not go back. -/
def sharedStore (limits : String → Nat) : Machine SharedStore ScriptCall ScriptReply where
  step s call :=
    if s.now ≤ call.now then
      let (reply, db) := SharedStore.run limits call s.db
      some (reply, ⟨call.now, db⟩)
    else none

/-! ## What a script does to the set under a key -/

section Effects

variable {limits : String → Nat} {call : ScriptCall} {db : CapacityDb} {key member : String}
  {now later : Nat} {set : SortedSet String Nat} {entry : String × Nat}

theorem isLive_iff : isLive now member set = true ↔ ∃ score, (member, score) ∈ set.entries ∧ now < score := by
  rw [isLive, Option.any_eq_true]
  constructor
  · rintro ⟨score, hscore, hlive⟩
    exact ⟨score, SortedSet.score_eq_some.mp hscore, of_decide_eq_true hlive⟩
  · rintro ⟨score, hmem, hlive⟩
    exact ⟨score, SortedSet.score_eq_some.mpr hmem, decide_eq_true hlive⟩

/-- An acquire only takes members from a key, or there is room under the key, the
    acquire is not rejected and adds its member. -/
theorem read_acquirePair {expiresAt : Nat} {ttl : LeaseTtl} {keys : LeaseKeys}
    {sharedLimit tenantLimit shared tenant : Int} {db' : CapacityDb}
    (h : acquirePair now expiresAt member ttl.val keys sharedLimit tenantLimit db =
      ((shared, tenant), db')) :
    db'.read now key ⊆ db.read now key ∨
      db'.read now key = ((db.read now key).removeRange 0 now).add member expiresAt ∧
      (key = keys.shared ∧ (live now (db.read now key) : Int) < sharedLimit ∨
        key = keys.tenant ∧ (live now (db.read now key) : Int) < tenantLimit) ∧
      ¬ sharedLimit ≤ shared ∧ ¬ tenantLimit ≤ tenant := by
  have hshared := @read_admitKey now expiresAt member keys.shared key ttl sharedLimit db
  unfold acquirePair at h
  generalize admitKey now expiresAt member ttl.val keys.shared sharedLimit db = first at h hshared
  obtain ⟨sharedCount, db₁⟩ := first
  obtain ⟨hother₁, hkey₁⟩ := hshared
  have htenant := @read_admitKey now expiresAt member keys.tenant key ttl tenantLimit db₁
  simp only at h hother₁ hkey₁
  by_cases hroom : sharedCount < sharedLimit
  · rw [if_pos hroom] at h
    generalize admitKey now expiresAt member ttl.val keys.tenant tenantLimit db₁ = second at h htenant
    obtain ⟨tenantCount, db₂⟩ := second
    obtain ⟨hother₂, hkey₂⟩ := htenant
    simp only at h hother₂ hkey₂
    by_cases hfull : tenantLimit ≤ tenantCount
    · -- The tenant key is full: it is pruned, and the shared key loses the member again.
      rw [if_pos hfull] at h
      obtain ⟨⟨rfl, rfl⟩, rfl⟩ := by simpa only [Prod.mk.injEq] using h
      refine .inl ?_
      rw [SortedSets.read_modify]
      by_cases hkey : key = keys.shared
      · subst hkey
        rw [if_pos rfl, hother₂ keys.distinct]
        rcases hkey₁ with ⟨-, heq⟩ | ⟨-, -, hread⟩ | ⟨hle, hcount, -⟩
        · cases heq
          exact SortedSet.remove_subset
        · rw [hread]
          exact SortedSet.remove_add_subset SortedSet.removeRange_subset
        · omega
      · rw [if_neg (Ne.symm hkey)]
        by_cases htenant : key = keys.tenant
        · subst htenant
          rw [hother₁ hkey] at hkey₂
          rcases hkey₂ with ⟨-, heq⟩ | ⟨hlt, hcount, -⟩ | ⟨-, -, hread⟩
          · cases heq
            rw [hother₁ hkey]
            exact SortedSet.subset_refl
          · omega
          · rw [hread]
            exact SortedSet.removeRange_subset
        · rw [hother₂ htenant, hother₁ hkey]
          exact SortedSet.subset_refl
    · rw [if_neg hfull] at h
      obtain ⟨⟨rfl, rfl⟩, rfl⟩ := by simpa only [Prod.mk.injEq] using h
      have haccepted : ¬ sharedLimit ≤ sharedCount ∧ ¬ tenantLimit ≤ tenantCount :=
        ⟨Int.not_le.mpr hroom, hfull⟩
      by_cases hkey : key = keys.shared
      · subst hkey
        rw [hother₂ keys.distinct]
        rcases hkey₁ with ⟨-, heq⟩ | ⟨hlt, -, hread⟩ | ⟨hle, hcount, -⟩
        · cases heq
          exact .inl SortedSet.subset_refl
        · exact .inr ⟨hread, .inl ⟨rfl, hlt⟩, haccepted⟩
        · omega
      · by_cases htenant : key = keys.tenant
        · subst htenant
          rw [hother₁ hkey] at hkey₂
          rcases hkey₂ with ⟨-, heq⟩ | ⟨hlt, -, hread⟩ | ⟨hle, hcount, -⟩
          · cases heq
            rw [hother₁ hkey]
            exact .inl SortedSet.subset_refl
          · exact .inr ⟨hread, .inr ⟨rfl, hlt⟩, haccepted⟩
          · omega
        · rw [hother₂ htenant, hother₁ hkey]
          exact .inl SortedSet.subset_refl
  · rw [if_neg hroom] at h
    obtain ⟨⟨rfl, rfl⟩, rfl⟩ := by simpa only [Prod.mk.injEq] using h
    refine .inl ?_
    by_cases hkey : key = keys.shared
    · subst hkey
      rcases hkey₁ with ⟨-, heq⟩ | ⟨hlt, hcount, -⟩ | ⟨-, -, hread⟩
      · cases heq
        exact SortedSet.subset_refl
      · omega
      · rw [hread]
        exact SortedSet.removeRange_subset
    · rw [hother₁ hkey]
      exact SortedSet.subset_refl

theorem read_prolong {expiresAt : Nat} {ttl : LeaseTtl} {other : String}
    (h : isLive now member (db.read now key) = true) :
    (prolong now expiresAt member ttl.val key db).read now other =
      if key = other then (db.read now key).add member expiresAt else db.read now other := by
  obtain ⟨score, hmem, -⟩ := isLive_iff.mp h
  have hsome : ((db.read now key).score member).isSome = true := by
    rw [SortedSet.score_eq_some.mpr hmem, Option.isSome_some]
  rw [prolong, SortedSets.read_expire lt_ttl]
  by_cases hkey : key = other
  · rw [if_pos hkey, if_pos hkey, SortedSets.modify]
    simp only [if_true, SortedSet.addExisting, hsome]
  · rw [if_neg hkey, if_neg hkey, SortedSets.read_modify, if_neg hkey]

/-- A renew moves the expiry of its lease where the lease is live, or changes nothing. -/
theorem read_renew {value : Int} {db' : CapacityDb}
    (h : Dispatch.renew call.now (call.now + call.ttl) call.member call.ttl call.keys db = (value, db')) :
    db'.read call.now key = db.read call.now key ∨
      isLive call.now call.member (db.read call.now key) = true ∧
      db'.read call.now key = (db.read call.now key).add call.member (call.now + call.ttl) := by
  unfold Dispatch.renew at h
  split at h
  · rename_i hlive
    rw [Bool.and_eq_true] at hlive
    obtain ⟨hshared, htenant⟩ := hlive
    cases h
    have htenant' : isLive call.now call.member ((prolong call.now (call.now + call.ttl) call.member
        call.ttl call.keys.shared db).read call.now call.keys.tenant) = true := by
      rw [read_prolong hshared, if_neg call.keys.distinct]
      exact htenant
    rw [read_prolong htenant', read_prolong hshared, if_neg call.keys.distinct]
    by_cases hkey : call.keys.tenant = key
    · subst hkey
      rw [if_pos rfl]
      exact .inr ⟨htenant, rfl⟩
    · rw [if_neg hkey, read_prolong hshared]
      by_cases hkey : call.keys.shared = key
      · subst hkey
        rw [if_pos rfl]
        exact .inr ⟨hshared, rfl⟩
      · rw [if_neg hkey]
        exact .inl rfl
  · cases h
    exact .inl rfl

theorem read_release {value : Int} {db' : CapacityDb}
    (h : Dispatch.release call.now call.member call.keys db = (value, db')) :
    db'.read call.now key ⊆ db.read call.now key ∧
      (call.keys.holds key → ∀ entry ∈ (db'.read call.now key).entries, entry.1 ≠ call.member) := by
  cases h
  rw [SortedSets.read_modify, SortedSets.read_modify, SortedSets.read_modify,
    if_neg call.keys.distinct]
  by_cases htenant : call.keys.tenant = key
  · subst htenant
    rw [if_pos rfl]
    exact ⟨SortedSet.remove_subset, fun _ _ hentry => (SortedSet.mem_remove.mp hentry).2⟩
  · rw [if_neg htenant]
    by_cases hshared : call.keys.shared = key
    · subst hshared
      rw [if_pos rfl]
      exact ⟨SortedSet.remove_subset, fun _ _ hentry => (SortedSet.mem_remove.mp hentry).2⟩
    · rw [if_neg hshared]
      exact ⟨SortedSet.subset_refl, fun hkey => hkey.elim (absurd · (Ne.symm hshared)) (absurd · (Ne.symm htenant))⟩

/-- Everything a script can do to the set under a key. -/
inductive ScriptEffect (limits : String → Nat) (call : ScriptCall) (reply : ScriptReply) (key : String)
    (pre : SortedSet String Nat) : SortedSet String Nat → Prop
  | shrinks {post : SortedSet String Nat} (hsub : post ⊆ pre) :
      ScriptEffect limits call reply key pre post
  | adds (hscript : call.script = .acquire) (hroom : live call.now pre < limits key)
      (hholds : call.keys.holds key) (haccepted : ¬ reply.rejected limits call.keys) :
      ScriptEffect limits call reply key pre
        ((pre.removeRange 0 call.now).add call.member (call.now + call.ttl))
  | prolongs (hscript : call.script = .renew) (hlive : isLive call.now call.member pre = true) :
      ScriptEffect limits call reply key pre (pre.add call.member (call.now + call.ttl))

theorem run_effect {reply : ScriptReply} {db' : CapacityDb}
    (h : SharedStore.run limits call db = (reply, db')) :
    ScriptEffect limits call reply key (db.read call.now key) (db'.read call.now key) := by
  unfold SharedStore.run at h
  split at h
  · rename_i hscript
    cases hout : acquirePair call.now (call.now + call.ttl) call.member call.ttl call.keys
      (limits call.keys.shared) (limits call.keys.tenant) db with
    | mk counts after =>
      rw [hout] at h
      cases h
      rcases read_acquirePair hout with hsub | ⟨hread, hkey, hshared, htenant⟩
      · exact .shrinks hsub
      · rw [hread]
        have haccepted : ¬ (ScriptReply.counts counts.1 counts.2).rejected limits call.keys :=
          fun hrejected => hrejected.elim hshared htenant
        rcases hkey with ⟨rfl, hroom⟩ | ⟨rfl, hroom⟩
        · exact .adds hscript (Int.ofNat_lt.mp hroom) (.inl rfl) haccepted
        · exact .adds hscript (Int.ofNat_lt.mp hroom) (.inr rfl) haccepted
  · rename_i hscript
    cases hout : Dispatch.renew call.now (call.now + call.ttl) call.member call.ttl call.keys db with
    | mk value after =>
      rw [hout] at h
      cases h
      rcases read_renew hout with hread | ⟨hlive, hread⟩ <;> rw [hread]
      · exact .shrinks SortedSet.subset_refl
      · exact .prolongs hscript hlive
  · cases h
    exact .shrinks (read_release rfl).1

variable {reply : ScriptReply} {pre post : SortedSet String Nat}

theorem live_effect (h : ScriptEffect limits call reply key pre post)
    (hle : live call.now pre ≤ limits key) : live call.now post ≤ limits key := by
  cases h with
  | shrinks hsub => exact Nat.le_trans (SortedSet.countP_le_of_subset hsub) hle
  | adds hscript hroom hholds haccepted =>
    have hpruned := @live_pruned call.now pre
    exact Nat.le_trans SortedSet.countP_add_le (by rw [← live, hpruned]; exact hroom)
  | prolongs hscript hlive =>
    obtain ⟨score, hmem, hlt⟩ := isLive_iff.mp hlive
    exact Nat.le_trans (SortedSet.countP_add_le_of_mem hmem (decide_eq_true hlt)) hle

theorem isLive_subset (hsub : post ⊆ pre) (h : isLive now member post = true) :
    isLive now member pre = true := by
  obtain ⟨score, hmem, hlt⟩ := isLive_iff.mp h
  exact isLive_iff.mpr ⟨score, hsub _ hmem, hlt⟩

/-- A member is live after a script because it was before, or because an acquire of it
    was accepted. -/
theorem isLive_effect (h : ScriptEffect limits call reply key pre post)
    (hlive : isLive call.now member post = true) :
    isLive call.now member pre = true ∨
      call.script = .acquire ∧ call.member = member ∧ call.keys.holds key ∧
        ¬ reply.rejected limits call.keys := by
  cases h with
  | shrinks hsub => exact .inl (isLive_subset hsub hlive)
  | adds hscript hroom hholds haccepted =>
    obtain ⟨score, hmem, hlt⟩ := isLive_iff.mp hlive
    rcases SortedSet.mem_add.mp hmem with heq | ⟨hold, -⟩
    · cases heq
      exact .inr ⟨hscript, rfl, hholds, haccepted⟩
    · exact .inl (isLive_iff.mpr ⟨score, SortedSet.removeRange_subset _ hold, hlt⟩)
  | prolongs hscript hpre =>
    obtain ⟨score, hmem, hlt⟩ := isLive_iff.mp hlive
    rcases SortedSet.mem_add.mp hmem with heq | ⟨hold, -⟩
    · cases heq
      exact .inl hpre
    · exact .inl (isLive_iff.mpr ⟨score, hold, hlt⟩)

/-- A rejected acquire leaves no member under a key that was not there. -/
theorem subset_of_rejected (h : ScriptEffect limits call reply key pre post)
    (hscript : call.script = .acquire) (hrejected : reply.rejected limits call.keys) : post ⊆ pre := by
  cases h with
  | shrinks hsub => exact hsub
  | adds _ hroom hholds haccepted => exact absurd hrejected haccepted
  | prolongs hrenew hlive => rw [hscript] at hrenew; cases hrenew

theorem live_later (h : now ≤ later) : live later (db.read later key) ≤ live now (db.read now key) := by
  rcases SortedSets.read_later h with hread | hread <;> rw [hread]
  · refine List.countP_mono_left fun entry _ hlive => ?_
    exact decide_eq_true (Nat.lt_of_le_of_lt h (of_decide_eq_true hlive))
  · exact Nat.zero_le _

theorem isLive_later (h : now ≤ later) (hlive : isLive later member (db.read later key) = true) :
    isLive now member (db.read now key) = true := by
  obtain ⟨score, hmem, hlt⟩ := isLive_iff.mp hlive
  rcases SortedSets.read_later h with hread | hread <;> rw [hread] at hmem
  · exact isLive_iff.mpr ⟨score, hmem, Nat.lt_of_le_of_lt h hlt⟩
  · exact absurd hmem List.not_mem_nil

end Effects

/-! ## Runs -/

section Runs

variable {limits : String → Nat} {x : Move SharedStore ScriptCall ScriptReply} {key member : String}
  {s final : SharedStore} {tr : List (Move SharedStore ScriptCall ScriptReply)}

/-- The move is an acquire that gave the member a place under the key. -/
def Acquires (limits : String → Nat) (member key : String)
    (x : Move SharedStore ScriptCall ScriptReply) : Prop :=
  x.input.script = .acquire ∧ x.input.member = member ∧ x.input.keys.holds key ∧
    ¬ x.reply.rejected limits x.input.keys

/-- The lease is not live under the key, now or at any later instant. -/
def Gone (member key : String) (s : SharedStore) : Prop :=
  isLive s.now member (s.db.read s.now key) = false

def WithinLimits (limits : String → Nat) (s : SharedStore) : Prop :=
  ∀ key, live s.now (s.db.read s.now key) ≤ limits key

theorem step_effect (h : (sharedStore limits).Makes x) :
    x.pre.now ≤ x.input.now ∧ x.post.now = x.input.now ∧
      SharedStore.run limits x.input x.pre.db = (x.reply, x.post.db) := by
  simp only [Machine.Makes, sharedStore, Option.ite_none_right_eq_some, Option.some.injEq,
    Prod.mk.injEq] at h
  obtain ⟨hclock, hreply, hpost⟩ := h
  rw [← hpost, ← hreply]
  exact ⟨hclock, rfl, rfl⟩

theorem withinLimits_step (h : (sharedStore limits).Makes x) (hpre : WithinLimits limits x.pre) :
    WithinLimits limits x.post := by
  obtain ⟨hclock, hnow, hrun⟩ := step_effect h
  intro key
  rw [hnow]
  exact live_effect (run_effect hrun) (Nat.le_trans (live_later hclock) (hpre key))

/-- A lease that is gone when a script runs is gone after it, unless the script
    acquires it. -/
theorem gone_step (h : (sharedStore limits).Makes x) (hnot : ¬ Acquires limits member key x)
    (hpre : isLive x.input.now member (x.pre.db.read x.input.now key) = false) :
    Gone member key x.post := by
  obtain ⟨-, hnow, hrun⟩ := step_effect h
  rw [Gone, hnow, Bool.eq_false_iff]
  intro hlive
  rcases isLive_effect (run_effect hrun) hlive with hpre' | hacquires
  · rw [hpre] at hpre'
    cases hpre'
  · exact hnot hacquires

theorem gone_released (h : (sharedStore limits).Makes x) (hscript : x.input.script = .release)
    (hmember : x.input.member = member) (hholds : x.input.keys.holds key) : Gone member key x.post := by
  obtain ⟨-, hnow, hrun⟩ := step_effect h
  rw [SharedStore.run, hscript] at hrun
  have hdb : (Dispatch.release x.input.now x.input.member x.input.keys x.pre.db).2 = x.post.db :=
    congrArg Prod.snd hrun
  rw [Gone, hnow, Bool.eq_false_iff]
  intro hlive
  obtain ⟨score, hmem, -⟩ := isLive_iff.mp hlive
  rw [← hdb] at hmem
  exact (read_release rfl).2 hholds _ hmem hmember.symm

theorem gone_later {later : Nat} (hclock : s.now ≤ later) (h : Gone member key s) :
    isLive later member (s.db.read later key) = false := by
  rw [Bool.eq_false_iff]
  intro hlive
  rw [Gone, isLive_later hclock hlive] at h
  cases h

/-- A lease that is gone stays gone until it is acquired. -/
theorem gone_run (h : Run (sharedStore limits) s tr final) (hs : Gone member key s)
    (hnot : ∀ x ∈ tr, ¬ Acquires limits member key x) : Gone member key final :=
  (h.invariant_when (P := Gone member key)
    (fun _ hmakes hnot hpre => gone_step hmakes hnot (gone_later (step_effect hmakes).1 hpre)) hnot hs).2

/-- Over every run of the scripts: at no instant are there more unexpired leases under a
    key than its limit; a rejected acquire adds nothing; and a lease that has expired
    when a script runs, or that the script releases, is gone until an acquire of it is
    accepted. -/
theorem admission_window {now : Nat} (h : Run (sharedStore limits) ⟨now, .empty⟩ tr final) :
    (∀ key later, final.now ≤ later → live later (final.db.read later key) ≤ limits key) ∧
    (∀ x ∈ tr, x.input.script = .acquire → x.reply.rejected limits x.input.keys →
      ∀ key, x.post.db.read x.input.now key ⊆ x.pre.db.read x.input.now key) ∧
    ∀ before x after key member, tr = before ++ x :: after →
      (isLive x.input.now member (x.pre.db.read x.input.now key) = false ∨
        x.input.script = .release ∧ x.input.member = member ∧ x.input.keys.holds key) →
      (∀ y ∈ x :: after, ¬ Acquires limits member key y) →
      ∀ later, final.now ≤ later → isLive later member (final.db.read later key) = false := by
  refine ⟨?_, ?_, ?_⟩
  · have hlimits : WithinLimits limits final :=
      h.invariant (fun _ => withinLimits_step) fun _ => Nat.zero_le _
    intro key later hlater
    exact Nat.le_trans (live_later hlater) (hlimits key)
  · intro x hx hscript hrejected key
    obtain ⟨-, -, hmakes⟩ := h.of_mem hx
    exact subset_of_rejected (run_effect (step_effect hmakes).2.2) hscript hrejected
  · rintro before x after key member rfl hgone hnot later hlater
    obtain ⟨-, hmakes, hafter⟩ := h.of_split
    obtain ⟨hnotx, hnotafter⟩ := List.forall_mem_cons.mp hnot
    have hpost : Gone member key x.post := by
      rcases hgone with hexpired | ⟨hscript, hmember, hholds⟩
      · exact gone_step hmakes hnotx hexpired
      · exact gone_released hmakes hscript hmember hholds
    exact gone_later hlater (gone_run hafter hpost hnotafter)

/-- A renew that comes too late: by then another gateway has the lease's place, and the
    renew leaves it so. -/
theorem admission_window_takeover :
    let keys : LeaseKeys := ⟨"shared", "tenant", by decide⟩
    let ttl : LeaseTtl := ⟨1000, by decide⟩
    ∃ tr final, Run (sharedStore fun _ => 1) ⟨0, .empty⟩ tr final ∧
      tr.map Move.input = [⟨.acquire, 0, ttl, "a", keys⟩, ⟨.acquire, 10, ttl, "b", keys⟩,
        ⟨.acquire, 1000, ttl, "b", keys⟩, ⟨.renew, 1000, ttl, "a", keys⟩] ∧
      tr.map Move.reply = [.counts 0 0, .counts 1 (-1), .counts 0 0, .result 0] ∧
      ∀ key, live 1000 (final.db.read 1000 key) ≤ 1 := by
  intro keys ttl
  obtain ⟨tr, final, hrun, hinputs, hcheck⟩ := (sharedStore fun _ => 1).exists_run ⟨0, .empty⟩
    [⟨.acquire, 0, ttl, "a", keys⟩, ⟨.acquire, 10, ttl, "b", keys⟩,
      ⟨.acquire, 1000, ttl, "b", keys⟩, ⟨.renew, 1000, ttl, "a", keys⟩]
    (fun tr final => tr.map Move.reply = [.counts 0 0, .counts 1 (-1), .counts 0 0, .result 0] ∧
      final.now = 1000) (by decide)
  obtain ⟨hreplies, hnow⟩ := of_decide_eq_true hcheck
  exact ⟨tr, final, hrun, hinputs, hreplies,
    fun key => (admission_window hrun).1 key 1000 (Nat.le_of_eq hnow)⟩

end Runs

end AiPlatform.Dispatch
