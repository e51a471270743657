/-
  AiPlatform.Knowledge.LiveCollections

  When a collection is deleted that a binding still carries.

  The dataset always has one serving binding at most, and its row is that of the
  binding.  A deletion, though, goes by a name that was read before: it takes a
  live collection exactly after a binding was created under a name that another
  call was about to delete, after an abort of a migration whose target was no
  longer its shadow, or after a lookup that raised for a name that is reserved.
-/

import AiPlatform.Knowledge.EmbeddingMigration

namespace AiPlatform.Knowledge.Embedding

open Transition

/-! ## Reads -/

variable {α : Type*} {p : α → Bool} {rows : List α}

theorem newest_eq_none (h : newest p rows = none) : ∀ a ∈ rows, p a = false := by
  intro a ha
  obtain ⟨i, hi⟩ := List.mem_iff_getElem?.mp ha
  have hmem : (a, i) ∈ rows.zipIdx.reverse :=
    List.mem_reverse.mpr (List.mem_zipIdx_iff_getElem?.mpr hi)
  exact Bool.eq_false_iff.mpr (List.find?_eq_none.mp h _ hmem)

variable {s s' : Store} {name : String} {naming : Naming} {task task' : Task} {outcome : Outcome}

theorem live_iff : s.live name = true ↔
    ∃ (i : Nat) (b : Binding), s.bindings[i]? = some b ∧ b.collectionName = name ∧ b.state ≠ .retired := by
  unfold Store.live
  rw [List.any_eq_true]
  constructor
  · rintro ⟨b, hb, hlive⟩
    obtain ⟨i, hi⟩ := List.mem_iff_getElem?.mp hb
    obtain ⟨hname, hstate⟩ := Bool.and_eq_true_iff.mp hlive
    exact ⟨i, b, hi, of_decide_eq_true hname, of_decide_eq_true hstate⟩
  · rintro ⟨i, b, hi, hname, hstate⟩
    exact ⟨b, List.mem_of_getElem? hi,
      Bool.and_eq_true_iff.mpr ⟨decide_eq_true hname, decide_eq_true hstate⟩⟩

theorem not_live_of_lookup (h : s.getBindingByCollectionName name = none) : s.live name = false :=
  List.any_eq_false.mpr fun b hb => Bool.eq_false_iff.mp (newest_eq_none h b hb)

theorem not_serving_of_lookup (h : s.getServingBinding = none) : ∀ b ∈ s.bindings, b.state ≠ .serving :=
  fun b hb => of_decide_eq_false (newest_eq_none h b hb)

/-! ## What a store holds to -/

/-- No two bindings that are not retired share a name, no two are serving, and the row
    of the dataset is that of the serving one. -/
structure Store.Consistent (s : Store) : Prop where
  names : ∀ (i j : Nat) (b c : Binding), s.bindings[i]? = some b → s.bindings[j]? = some c →
    b.state ≠ .retired → c.state ≠ .retired → b.collectionName = c.collectionName → i = j
  serving : ∀ (i j : Nat) (b c : Binding), s.bindings[i]? = some b → s.bindings[j]? = some c →
    b.state = .serving → c.state = .serving → i = j
  dataset : ∀ b ∈ s.bindings, b.state = .serving → s.dataset = ⟨b.collectionName, b.identity⟩

/-- A binding stays under its name, as it was or retired. -/
def Binding.Ages (b b' : Binding) : Prop :=
  b'.collectionName = b.collectionName ∧ b'.identity = b.identity ∧
    (b'.state = b.state ∨ b.state ≠ .serving ∧ b'.state = .retired)

/-- The dataset stays, and every binding ages. -/
structure Store.Quiet (s s' : Store) : Prop where
  dataset : s'.dataset = s.dataset
  length : s'.bindings.length = s.bindings.length
  bindings : ∀ (i : Nat) (b : Binding), s.bindings[i]? = some b →
    ∃ b', s'.bindings[i]? = some b' ∧ b.Ages b'

/-- Another binding serves. -/
structure Store.Flips (s s' : Store) (old new : Nat) (b c b' c' : Binding) : Prop where
  foundOld : s.bindings[old]? = some b
  foundNew : s.bindings[new]? = some c
  oldState : b.state = .serving
  newState : c.state ≠ .serving ∧ c.state ≠ .retired
  names : b'.collectionName = b.collectionName ∧ c'.collectionName = c.collectionName
  identity : c'.identity = c.identity
  states : b'.state ≠ .serving ∧ c'.state = .serving
  dataset : s'.dataset = ⟨c.collectionName, c.identity⟩
  bindings : s'.bindings = (s.bindings.set old b').set new c'

/-- What a step does to the bindings, with the name it reserves. -/
inductive Store.Changes (s s' : Store) : Option String → Prop
  | quiet (h : s.Quiet s') : Changes s s' none
  | flips {old new : Nat} {b c b' c' : Binding} (h : s.Flips s' old new b c b' c') : Changes s s' none
  | inserts (b : Binding) (hbindings : s'.bindings = s.bindings ++ [b])
      (hdataset : s'.dataset = s.dataset) (hfree : s.live b.collectionName = false)
      (hlive : b.state ≠ .retired)
      (hserving : b.state = .serving →
        (∀ c ∈ s.bindings, c.state ≠ .serving) ∧ s.dataset = ⟨b.collectionName, b.identity⟩) :
      Changes s s' (some b.collectionName)

/-- The binding that is at a place after a change, as it was before. -/
theorem Store.Quiet.back (h : s.Quiet s') {i : Nat} {b' : Binding} (hi : s'.bindings[i]? = some b') :
    ∃ b, s.bindings[i]? = some b ∧ b.Ages b' := by
  obtain ⟨hlt, -⟩ := List.getElem?_eq_some_iff.mp hi
  obtain ⟨b, hb⟩ : ∃ b, s.bindings[i]? = some b := ⟨_, List.getElem?_eq_getElem (h.length ▸ hlt)⟩
  obtain ⟨b'', hi', hages⟩ := h.bindings i b hb
  rw [hi] at hi'
  cases hi'
  exact ⟨b, hb, hages⟩

theorem Binding.Ages.live {b b' : Binding} (h : b.Ages b') (hlive : b'.state ≠ .retired) :
    b.state ≠ .retired := by
  rcases h.2.2 with hsame | ⟨-, hretired⟩
  · exact hsame ▸ hlive
  · exact absurd hretired hlive

theorem Binding.Ages.serving {b b' : Binding} (h : b.Ages b') (hserving : b'.state = .serving) :
    b.state = .serving := by
  rcases h.2.2 with hsame | ⟨-, hretired⟩
  · exact hsame.symm.trans hserving
  · rw [hretired] at hserving
    cases hserving

theorem Store.Quiet.consistent (h : s.Quiet s') (hs : s.Consistent) : s'.Consistent where
  names i j b' c' hi hj hb hc hname := by
    obtain ⟨b, hi, hbages⟩ := h.back hi
    obtain ⟨c, hj, hcages⟩ := h.back hj
    exact hs.names i j b c hi hj (hbages.live hb) (hcages.live hc)
      (hbages.1.symm.trans (hname.trans hcages.1))
  serving i j b' c' hi hj hb hc := by
    obtain ⟨b, hi, hbages⟩ := h.back hi
    obtain ⟨c, hj, hcages⟩ := h.back hj
    exact hs.serving i j b c hi hj (hbages.serving hb) (hcages.serving hc)
  dataset b' hmem hb := by
    obtain ⟨i, hi⟩ := List.mem_iff_getElem?.mp hmem
    obtain ⟨b, hi, hages⟩ := h.back hi
    rw [h.dataset, hages.1, hages.2.1]
    exact hs.dataset b (List.mem_of_getElem? hi) (hages.serving hb)

/-- The binding at a place after another one serves. -/
theorem Store.Flips.at {old new i : Nat} {b c b' c' d : Binding} (h : s.Flips s' old new b c b' c')
    (hi : s'.bindings[i]? = some d) :
    (i = new ∧ d = c') ∨ (i = old ∧ d = b') ∨ (i ≠ new ∧ i ≠ old ∧ s.bindings[i]? = some d) := by
  obtain ⟨hold, -⟩ := List.getElem?_eq_some_iff.mp h.foundOld
  obtain ⟨hnew, -⟩ := List.getElem?_eq_some_iff.mp h.foundNew
  rw [h.bindings, List.getElem?_set, List.getElem?_set] at hi
  by_cases hinew : new = i
  · subst hinew
    simp only [List.length_set, hnew, if_true] at hi
    exact .inl ⟨rfl, (Option.some.inj hi).symm⟩
  · rw [if_neg hinew] at hi
    by_cases hiold : old = i
    · subst hiold
      simp only [hold, if_true] at hi
      exact .inr (.inl ⟨rfl, (Option.some.inj hi).symm⟩)
    · rw [if_neg hiold] at hi
      exact .inr (.inr ⟨fun h => hinew h.symm, fun h => hiold h.symm, hi⟩)

/-- A binding keeps its place and its name through a flip, and none comes back. -/
theorem Store.Flips.back {old new i : Nat} {b c b' c' d : Binding} (h : s.Flips s' old new b c b' c')
    (hi : s'.bindings[i]? = some d) :
    ∃ d₀, s.bindings[i]? = some d₀ ∧ d.collectionName = d₀.collectionName ∧
      (d.state ≠ .retired → d₀.state ≠ .retired) := by
  rcases h.at hi with ⟨rfl, rfl⟩ | ⟨rfl, rfl⟩ | ⟨-, -, hi⟩
  · exact ⟨c, h.foundNew, h.names.2, fun _ => h.newState.2⟩
  · refine ⟨b, h.foundOld, h.names.1, fun _ => ?_⟩
    rw [h.oldState]
    nofun
  · exact ⟨d, hi, rfl, id⟩

/-- After a flip only the new binding serves. -/
theorem Store.Flips.serves {old new i : Nat} {b c b' c' d : Binding} (h : s.Flips s' old new b c b' c')
    (hs : s.Consistent) (hi : s'.bindings[i]? = some d) (hd : d.state = .serving) :
    i = new ∧ d = c' := by
  rcases h.at hi with hnew | ⟨rfl, rfl⟩ | ⟨-, hne, hi⟩
  · exact hnew
  · exact absurd hd h.states.1
  · exact absurd (hs.serving _ _ _ _ hi h.foundOld hd h.oldState) hne

theorem Store.Flips.consistent {old new : Nat} {b c b' c' : Binding}
    (h : s.Flips s' old new b c b' c') (hs : s.Consistent) : s'.Consistent where
  names i j d e hi hj hd he hname := by
    obtain ⟨d₀, hi, hdname, hdlive⟩ := h.back hi
    obtain ⟨e₀, hj, hename, helive⟩ := h.back hj
    exact hs.names i j d₀ e₀ hi hj (hdlive hd) (helive he) (hdname.symm.trans (hname.trans hename))
  serving i j d e hi hj hd he := (h.serves hs hi hd).1.trans (h.serves hs hj he).1.symm
  dataset d hmem hd := by
    obtain ⟨i, hi⟩ := List.mem_iff_getElem?.mp hmem
    obtain ⟨-, rfl⟩ := h.serves hs hi hd
    rw [h.dataset, h.names.2, h.identity]

theorem Store.Changes.consistent {reserved : Option String} (h : s.Changes s' reserved)
    (hs : s.Consistent) : s'.Consistent := by
  cases h with
  | quiet h => exact h.consistent hs
  | flips h => exact h.consistent hs
  | inserts b hbindings hdataset hfree hlive hserving =>
    have hat : ∀ {i : Nat} {c : Binding}, s'.bindings[i]? = some c →
        s.bindings[i]? = some c ∨ i = s.bindings.length ∧ b = c := by
      intro i c hi
      rw [hbindings] at hi
      exact Pool.getElem?_push_iff.mp hi
    have hname : ∀ {i : Nat} {c : Binding}, s.bindings[i]? = some c → c.state ≠ .retired →
        c.collectionName ≠ b.collectionName := by
      intro i c hi hc heq
      rw [Bool.eq_false_iff] at hfree
      exact hfree (live_iff.mpr ⟨i, c, hi, heq, hc⟩)
    constructor
    · intro i j c d hi hj hc hd heq
      rcases hat hi with hi | ⟨rfl, rfl⟩
      · rcases hat hj with hj | ⟨-, rfl⟩
        · exact hs.names i j c d hi hj hc hd heq
        · exact absurd heq (hname hi hc)
      · rcases hat hj with hj | ⟨rfl, -⟩
        · exact absurd heq.symm (hname hj hd)
        · rfl
    · intro i j c d hi hj hc hd
      rcases hat hi with hi | ⟨rfl, rfl⟩
      · rcases hat hj with hj | ⟨-, rfl⟩
        · exact hs.serving i j c d hi hj hc hd
        · exact absurd hc ((hserving hd).1 c (List.mem_of_getElem? hi))
      · rcases hat hj with hj | ⟨rfl, -⟩
        · exact absurd hd ((hserving hc).1 d (List.mem_of_getElem? hj))
        · rfl
    · intro c hmem hc
      rw [hbindings] at hmem
      rw [hdataset]
      rcases List.mem_append.mp hmem with hmem | hmem
      · exact hs.dataset c hmem hc
      · rw [List.mem_singleton.mp hmem] at hc ⊢
        exact (hserving hc).2

/-- A name that is live after a step was live before, or the step has reserved it. -/
theorem Store.Changes.live {reserved : Option String} (h : s.Changes s' reserved)
    (hlive : s'.live name = true) : s.live name = true ∨ reserved = some name := by
  obtain ⟨i, d, hi, rfl, hd⟩ := live_iff.mp hlive
  cases h with
  | quiet h =>
    obtain ⟨b, hi, hages⟩ := h.back hi
    exact .inl (live_iff.mpr ⟨i, b, hi, hages.1.symm, hages.live hd⟩)
  | flips h =>
    obtain ⟨b, hi, hname, hb⟩ := h.back hi
    exact .inl (live_iff.mpr ⟨i, b, hi, hname.symm, hb hd⟩)
  | inserts b hbindings =>
    rw [hbindings] at hi
    rcases Pool.getElem?_push_iff.mp hi with hi | ⟨-, rfl⟩
    · exact .inl (live_iff.mpr ⟨i, d, hi, rfl, hd⟩)
    · exact .inr rfl

theorem Store.Changes.reserved_live (h : s.Changes s' (some name)) : s'.live name = true := by
  cases h with
  | inserts b hbindings hdataset hfree hlive hserving =>
    refine live_iff.mpr ⟨s.bindings.length, b, ?_, rfl, hlive⟩
    rw [hbindings]
    exact Pool.getElem?_push_iff.mpr (.inr ⟨rfl, rfl⟩)

/-! ## What stays known of a store -/

/-- Migrations keep their targets, bindings their names, and while nothing serves the
    row of the dataset stays. -/
structure Store.Extends (s s' : Store) : Prop where
  targets : ∀ (i : Nat) (m : Migration), s.migrations[i]? = some m →
    ∃ m', s'.migrations[i]? = some m' ∧ m'.targetBinding = m.targetBinding
  names : ∀ (i : Nat) (b : Binding), s.bindings[i]? = some b →
    ∃ b', s'.bindings[i]? = some b' ∧ b'.collectionName = b.collectionName
  unserved : (∀ b ∈ s'.bindings, b.state ≠ .serving) →
    (∀ b ∈ s.bindings, b.state ≠ .serving) ∧ s'.dataset = s.dataset

/-- What one step does to a store. -/
structure Store.Moves (s s' : Store) (reserved : Option String) : Prop where
  changes : s.Changes s' reserved
  targets : ∀ (i : Nat) (m : Migration), s.migrations[i]? = some m →
    ∃ m', s'.migrations[i]? = some m' ∧ m'.targetBinding = m.targetBinding

theorem Store.Moves.extends {reserved : Option String} (h : s.Moves s' reserved) : s.Extends s' := by
  refine ⟨h.targets, ?_, ?_⟩
  · intro i b hi
    cases h.changes with
    | quiet hquiet =>
      obtain ⟨b', hi', hages⟩ := hquiet.bindings i b hi
      exact ⟨b', hi', hages.1⟩
    | flips hflips =>
      obtain ⟨hlt, -⟩ := List.getElem?_eq_some_iff.mp hi
      have hlength : s'.bindings.length = s.bindings.length := by
        rw [hflips.bindings, List.length_set, List.length_set]
      obtain ⟨d, hd⟩ : ∃ d, s'.bindings[i]? = some d := ⟨_, List.getElem?_eq_getElem (hlength ▸ hlt)⟩
      obtain ⟨d₀, hi', hname, -⟩ := hflips.back hd
      rw [hi] at hi'
      cases hi'
      exact ⟨d, hd, hname⟩
    | inserts _ hbindings =>
      refine ⟨b, ?_, rfl⟩
      rw [hbindings]
      exact Pool.getElem?_push_iff.mpr (.inl hi)
  · intro hnone
    cases h.changes with
    | quiet hquiet =>
      refine ⟨fun b hb hserving => ?_, hquiet.dataset⟩
      obtain ⟨i, hi⟩ := List.mem_iff_getElem?.mp hb
      obtain ⟨b', hi', hages⟩ := hquiet.bindings i b hi
      rcases hages.2.2 with hsame | ⟨hnot, -⟩
      · exact hnone b' (List.mem_of_getElem? hi') (hsame.trans hserving)
      · exact hnot hserving
    | @flips old new b c b' c' hflips =>
      have hnew : c' ∈ s'.bindings := by
        obtain ⟨hlt, -⟩ := List.getElem?_eq_some_iff.mp hflips.foundNew
        rw [hflips.bindings]
        exact List.mem_of_getElem? (List.getElem?_set_self (by rw [List.length_set]; exact hlt))
      exact absurd hflips.states.2 (hnone c' hnew)
    | inserts b hbindings hdataset =>
      refine ⟨fun c hc => hnone c ?_, hdataset⟩
      rw [hbindings]
      exact List.mem_append.mpr (.inl hc)

/-! ## Store calls -/

theorem quiet_of_bindings (hdataset : s'.dataset = s.dataset) (hbindings : s'.bindings = s.bindings) :
    s.Quiet s' where
  dataset := hdataset
  length := congrArg List.length hbindings
  bindings _ b hi := ⟨b, hbindings ▸ hi, rfl, rfl, .inl rfl⟩

theorem Store.Quiet.congr {s₁ : Store} (h : s.Quiet s₁) (hdataset : s'.dataset = s₁.dataset)
    (hbindings : s'.bindings = s₁.bindings) : s.Quiet s' where
  dataset := hdataset.trans h.dataset
  length := (congrArg List.length hbindings).trans h.length
  bindings i b hi := by
    rw [hbindings]
    exact h.bindings i b hi

theorem moves_of_migrations (hdataset : s'.dataset = s.dataset) (hbindings : s'.bindings = s.bindings)
    (hmigrations : s'.migrations = s.migrations) : s.Moves s' none where
  changes := .quiet (quiet_of_bindings hdataset hbindings)
  targets _ m hi := ⟨m, hmigrations ▸ hi, rfl⟩

theorem setMigration_targets {migration : Nat} {state : MigrationState} (i : Nat) (m : Migration)
    (hi : s.migrations[i]? = some m) :
    ∃ m', (s.setMigration migration state).migrations[i]? = some m' ∧
      m'.targetBinding = m.targetBinding := by
  simp only [Store.setMigration, List.getElem?_modify, hi]
  split
  · exact ⟨_, rfl, rfl⟩
  · exact ⟨_, rfl, rfl⟩

theorem transitionMigration_moves {migration : Nat} {toState : MigrationState}
    {fromStates : List MigrationState} (h : s.transitionMigration migration toState fromStates = some s') :
    s.Moves s' none := by
  unfold Store.transitionMigration at h
  split at h
  · split at h
    · cases h
      exact ⟨.quiet (quiet_of_bindings rfl rfl), setMigration_targets⟩
    · cases h
  · cases h

theorem beginMigration_moves {source target : Nat} (h : s.beginMigration source target = some s') :
    s.Moves s' none := by
  unfold Store.beginMigration at h
  split at h
  · cases h
  · cases h
    refine ⟨.quiet (quiet_of_bindings rfl rfl), fun i m hi => ⟨m, ?_, rfl⟩⟩
    exact Pool.getElem?_push_iff.mpr (.inl hi)

theorem reopenMigrationForRetry_moves {migration : Nat}
    (h : s.reopenMigrationForRetry migration = some s') : s.Moves s' none := by
  unfold Store.reopenMigrationForRetry at h
  split at h
  · split at h
    · exact transitionMigration_moves h
    · cases h
  · cases h

/-- Bindings that are not serving are retired in place. -/
theorem setBinding_quiet {binding : Nat} {f : Binding → Binding}
    (hf : ∀ b, s.bindings[binding]? = some b → b.Ages (f b)) : s.Quiet (s.setBinding binding f) where
  dataset := rfl
  length := List.length_modify ..
  bindings i b hi := by
    simp only [Store.setBinding, List.getElem?_modify, hi]
    split
    · rename_i heq
      subst heq
      exact ⟨_, rfl, hf b hi⟩
    · exact ⟨b, rfl, rfl, rfl, .inl rfl⟩

theorem abandonMigration_moves {migration : Nat} (h : s.abandonMigration migration = some s') :
    s.Moves s' none := by
  unfold Store.abandonMigration at h
  split at h
  · rename_i m hm
    split at h
    · cases h
      have hquiet := @setBinding_quiet s m.targetBinding
        (fun b => if b.state = .shadow then { b with state := .retired } else b) ?_
      · exact ⟨.quiet (hquiet.congr rfl rfl), setMigration_targets⟩
      · intro b _
        split
        · rename_i hshadow
          refine ⟨rfl, rfl, .inr ⟨?_, rfl⟩⟩
          rw [hshadow]
          nofun
        · exact ⟨rfl, rfl, .inl rfl⟩
    · cases h
  · cases h

theorem retireBinding_moves {binding : Nat} (h : s.retireBinding binding = some (s', name)) :
    s.Moves s' none := by
  unfold Store.retireBinding at h
  split at h
  · rename_i b hb
    split at h
    · rename_i hretained
      cases h
      refine ⟨.quiet (setBinding_quiet fun c hc => ⟨rfl, rfl, .inr ⟨?_, rfl⟩⟩),
        fun _ m hi => ⟨m, hi, rfl⟩⟩
      rw [hb] at hc
      cases hc
      rw [hretained]
      nofun
    · cases h
  · cases h

/-- A row that is known and one at another place are modified one after the other. -/
theorem modify_modify_eq_set {i j : Nat} {a b : α} (f g : α → α) (hi : rows[i]? = some a)
    (hj : rows[j]? = some b) (hne : i ≠ j) :
    (rows.modify i f).modify j g = (rows.set i (f a)).set j (g b) := by
  have heq : ∀ {rows : List α} {i : Nat} {a : α} (f : α → α), rows[i]? = some a →
      rows.modify i f = rows.set i (f a) := by
    intro rows i a f h
    rw [List.modify_eq_set_getElem?, h]
    rfl
  rw [heq f hi]
  exact heq g ((List.getElem?_set_ne hne).trans hj)

theorem cutoverMigration_moves {migration : Nat} {deadline : Int}
    (h : s.cutoverMigration migration deadline = some s') : s.Moves s' none := by
  unfold Store.cutoverMigration at h
  split at h
  · rename_i m hm
    split at h
    · rename_i src tgt hsrc htgt
      split at h
      · rename_i hguard
        obtain ⟨-, hserving, hshadow, -⟩ := hguard
        have hne : m.sourceBinding ≠ m.targetBinding := by
          intro heq
          rw [heq, htgt] at hsrc
          cases hsrc
          rw [hserving] at hshadow
          cases hshadow
        have hnew : tgt.state ≠ .serving ∧ tgt.state ≠ .retired := by
          rw [hshadow]
          exact ⟨nofun, nofun⟩
        cases h
        refine ⟨@Store.Changes.flips s _ m.sourceBinding m.targetBinding src tgt
          { src with state := .retained, retainedUntil := some deadline }
          { tgt with state := .serving }
          ⟨hsrc, htgt, hserving, hnew, ⟨rfl, rfl⟩, rfl, ⟨nofun, rfl⟩, rfl, ?_⟩, setMigration_targets⟩
        exact modify_modify_eq_set _ _ hsrc htgt hne
      · cases h
    · cases h
  · cases h

theorem rollbackMigration_moves {migration : Nat} {keepShadow : Bool}
    (h : s.rollbackMigration migration keepShadow = some s') : s.Moves s' none := by
  unfold Store.rollbackMigration at h
  split at h
  · rename_i m hm
    split at h
    · rename_i src tgt hsrc htgt
      split at h
      · rename_i hguard
        obtain ⟨-, hretained, hserving, -⟩ := hguard
        have hne : m.targetBinding ≠ m.sourceBinding := by
          intro heq
          rw [heq, hsrc] at htgt
          cases htgt
          rw [hserving] at hretained
          cases hretained
        have hnew : src.state ≠ .serving ∧ src.state ≠ .retired := by
          rw [hretained]
          exact ⟨nofun, nofun⟩
        have hold : (if keepShadow then BindingState.shadow else .retired) ≠ .serving := by
          cases keepShadow <;> exact nofun
        cases h
        refine ⟨@Store.Changes.flips s _ m.targetBinding m.sourceBinding tgt src
          { tgt with state := if keepShadow then .shadow else .retired }
          { src with state := .serving, retainedUntil := none }
          ⟨htgt, hsrc, hserving, hnew, ⟨rfl, rfl⟩, rfl, ⟨hold, rfl⟩, rfl, ?_⟩, setMigration_targets⟩
        exact modify_modify_eq_set _ _ htgt hsrc hne
      · cases h
    · cases h
  · cases h

theorem createBinding_moves {identity : EmbeddingIdentity} {binding : Nat}
    (h : s.createBinding name identity = some (s', binding)) :
    s.Moves s' (some name) ∧ s.live name = false := by
  unfold Store.createBinding at h
  split at h
  · cases h
  · rename_i hfree
    cases h
    have hnot : s.live name = false := Bool.eq_false_iff.mpr hfree
    exact ⟨⟨.inserts ⟨name, identity, .shadow, none⟩ rfl rfl hnot nofun nofun,
      fun _ m hi => ⟨m, hi, rfl⟩⟩, hnot⟩

/-! ## What a call knows, reserves and deletes -/

/-- What a call has read is still so: the row of a dataset that nothing serves, the
    target of a migration, the name of a binding. -/
def Task.Knows (s : Store) : Task → Prop
  | .getServing req | .registerServing req =>
      (∀ b ∈ s.bindings, b.state ≠ .serving) → req.dataset = s.dataset
  | .rollbackBinding migration _ target | .abortBinding migration _ target =>
      ∃ m, s.migrations[migration]? = some m ∧ m.targetBinding = target
  | .rollback migration _ (some name) | .abandon migration _ (some name) =>
      ∃ m b, s.migrations[migration]? = some m ∧ s.bindings[m.targetBinding]? = some b ∧
        b.collectionName = name
  | _ => True

/-- The name a step reserves with a new binding. -/
def Task.reserves (naming : Naming) (s : Store) (task : Task) (outcome : Outcome) : Option String :=
  match task, outcome with
  | .createBinding req _, .done =>
      if s.live (naming.shadowName req) then none else some (naming.shadowName req)
  | .registerServing req, .done =>
      if req.dataset.identity.dimension = 0 ∨ s.getServingBinding.isSome = true ∨
          s.live req.dataset.collectionName = true then none
      else some req.dataset.collectionName
  | _, _ => none

/-- The collection a call is about to delete. -/
def Task.deletes : Task → Option String
  | .delete collection _ => some collection
  | _ => none

/-- The target of the migration is a shadow. -/
def Store.targetsShadow (s : Store) (migration : Nat) : Bool :=
  (s.migrations[migration]?).any fun m =>
    (s.bindings[m.targetBinding]?).any fun b => decide (b.state = .shadow)

/-- The step makes a call about to delete a name that a binding carries: an abort whose
    target is no shadow any more, and a lookup that raises. -/
def Task.dooms (s : Store) (task : Task) (outcome : Outcome) : Bool :=
  match task, outcome with
  | .abandon migration true (some name), .done =>
      (s.abandonMigration migration).isSome && !s.targetsShadow migration && s.live name
  | .lookupAgain name, .raised => s.live name
  | _, _ => false

theorem Task.Knows.mono (h : task.Knows s) (hs : s.Extends s') : task.Knows s' := by
  have htarget : ∀ {migration target : Nat},
      (∃ m, s.migrations[migration]? = some m ∧ m.targetBinding = target) →
      ∃ m, s'.migrations[migration]? = some m ∧ m.targetBinding = target := by
    rintro migration _ ⟨m, hm, rfl⟩
    exact hs.targets migration m hm
  have hname : ∀ {migration : Nat} {name : String},
      (∃ m b, s.migrations[migration]? = some m ∧ s.bindings[m.targetBinding]? = some b ∧
        b.collectionName = name) →
      ∃ m b, s'.migrations[migration]? = some m ∧ s'.bindings[m.targetBinding]? = some b ∧
        b.collectionName = name := by
    rintro migration _ ⟨m, b, hm, hb, rfl⟩
    obtain ⟨m', hm', htarget⟩ := hs.targets migration m hm
    obtain ⟨b', hb', hname⟩ := hs.names _ b hb
    exact ⟨m', b', hm', htarget ▸ hb', hname⟩
  cases task with
  | getServing req =>
    intro hnone
    obtain ⟨hunserved, hdataset⟩ := hs.unserved hnone
    exact (h hunserved).trans hdataset.symm
  | registerServing req =>
    intro hnone
    obtain ⟨hunserved, hdataset⟩ := hs.unserved hnone
    exact (h hunserved).trans hdataset.symm
  | rollbackBinding migration keepShadow target => exact htarget h
  | abortBinding migration purgeShadow target => exact htarget h
  | rollback migration keepShadow collection =>
    cases collection with
    | none => trivial
    | some name => exact hname h
  | abandon migration purgeShadow collection =>
    cases collection with
    | none => trivial
    | some name => exact hname h
  | _ => trivial

theorem moves_self : s.Moves s none := moves_of_migrations rfl rfl rfl

theorem registerServingBinding_moves {row : Dataset} {serving : Binding × Nat}
    (hrow : (∀ b ∈ s.bindings, b.state ≠ .serving) → row = s.dataset)
    (h : s.registerServingBinding row = some (s', serving)) :
    s.Moves s' (if row.identity.dimension = 0 ∨ s.getServingBinding.isSome = true ∨
      s.live row.collectionName = true then none else some row.collectionName) := by
  unfold Store.registerServingBinding at h
  split at h
  · cases h
  · rename_i hdimension
    split at h
    · rename_i found hfound
      cases h
      rw [if_pos (.inr (.inl (by rw [hfound]; rfl)))]
      exact moves_self
    · rename_i hnone
      split at h
      · cases h
      · rename_i hfree
        cases h
        have hunserved := not_serving_of_lookup hnone
        rw [if_neg (by rw [hnone]; simp [hdimension, hfree])]
        refine ⟨.inserts ⟨row.collectionName, row.identity, .serving, none⟩ rfl rfl
          (Bool.eq_false_iff.mpr hfree) nofun fun _ => ⟨hunserved, ?_⟩, fun _ m hi => ⟨m, hi, rfl⟩⟩
        rw [← hrow hunserved]

/-- What a step that comes off does to the store. -/
theorem proceed_moves (hknows : task.Knows s) (h : task.proceed naming s = some (s', task')) :
    s.Moves s' (task.reserves naming s .done) := by
  cases task with
  | getServing req =>
    simp only [Task.proceed] at h
    split at h <;> split at h <;> cases h <;> exact moves_self
  | registerServing req =>
    simp only [Task.proceed] at h
    split at h
    · rename_i s₁ serving source hregister
      cases h
      exact registerServingBinding_moves hknows hregister
    · cases h
  | probe req source =>
    simp only [Task.proceed] at h
    split at h
    · split at h <;> cases h
      exact moves_self
    · cases h
  | lookup req source =>
    simp only [Task.proceed] at h
    split at h <;> cases h <;> exact moves_self
  | priorMigration req source reserved => cases h; exact moves_self
  | reopen migration =>
    obtain ⟨s₁, hreopen, heq⟩ := Option.map_eq_some_iff.mp h
    cases heq
    exact reopenMigrationForRetry_moves hreopen
  | ensure req source reserved =>
    cases h
    unfold Store.ensureCollection
    split
    · exact moves_self
    · exact moves_of_migrations rfl rfl rfl
  | createBinding req source =>
    obtain ⟨⟨s₁, binding⟩, hcreate, heq⟩ := Option.map_eq_some_iff.mp h
    cases heq
    obtain ⟨hmoves, hfree⟩ := createBinding_moves hcreate
    simp only [Task.reserves, hfree, Bool.false_eq_true, if_false]
    exact hmoves
  | lookupAgain name => cases h; exact moves_self
  | beginMigration source target =>
    obtain ⟨s₁, hbegin, heq⟩ := Option.map_eq_some_iff.mp h
    cases heq
    exact beginMigration_moves hbegin
  | enterBackfill migration =>
    obtain ⟨s₁, hmove, heq⟩ := Option.map_eq_some_iff.mp h
    cases heq
    exact transitionMigration_moves hmove
  | embed migration => cases h; exact moves_self
  | verify migration =>
    obtain ⟨s₁, hmove, heq⟩ := Option.map_eq_some_iff.mp h
    cases heq
    exact transitionMigration_moves hmove
  | enterGate migration =>
    obtain ⟨s₁, hmove, heq⟩ := Option.map_eq_some_iff.mp h
    cases heq
    exact transitionMigration_moves hmove
  | evaluate migration =>
    obtain ⟨s₁, hmove, heq⟩ := Option.map_eq_some_iff.mp h
    cases heq
    exact transitionMigration_moves hmove
  | cutoverGet migration deadline =>
    obtain ⟨m, -, heq⟩ := Option.map_eq_some_iff.mp h
    cases heq
    exact moves_self
  | cutover migration deadline =>
    obtain ⟨s₁, hcutover, heq⟩ := Option.map_eq_some_iff.mp h
    cases heq
    exact cutoverMigration_moves hcutover
  | rollbackGet migration keepShadow => cases h; exact moves_self
  | rollbackBinding migration keepShadow target => cases h; exact moves_self
  | rollback migration keepShadow collection =>
    obtain ⟨s₁, hrollback, heq⟩ := Option.map_eq_some_iff.mp h
    cases heq
    exact rollbackMigration_moves hrollback
  | abortGet migration purgeShadow =>
    obtain ⟨m, -, heq⟩ := Option.map_eq_some_iff.mp h
    cases heq
    exact moves_self
  | abortBinding migration purgeShadow target => cases h; exact moves_self
  | abandon migration purgeShadow collection =>
    obtain ⟨s₁, habandon, heq⟩ := Option.map_eq_some_iff.mp h
    cases heq
    exact abandonMigration_moves habandon
  | listReclaimable now deleteCollections => cases h; exact moves_self
  | retire deleteCollections bindings =>
    cases bindings with
    | nil => cases h; exact moves_self
    | cons binding bindings =>
      simp only [Task.proceed] at h
      split at h
      · rename_i hretire
        cases h
        exact retireBinding_moves hretire
      · cases h
        exact moves_self
  | delete collection bindings =>
    cases h
    exact moves_of_migrations rfl rfl rfl
  | finished => cases h

/-- A step that raises reserves nothing. -/
theorem raise_moves : s.Moves (task.raise naming s).1 none := by
  cases task with
  | embed migration =>
    simp only [Task.raise]
    cases hmove : s.transitionMigration migration .failed [.shadowBuild, .backfilling] with
    | none => exact moves_self
    | some s₁ => exact transitionMigration_moves hmove
  | evaluate migration =>
    simp only [Task.raise]
    cases hmove : s.recordGateVerdict migration false with
    | none => exact moves_self
    | some s₁ => exact transitionMigration_moves hmove
  | _ => exact moves_self

theorem reserves_of_raises (h : task.proceed naming s = none) :
    task.reserves naming s .done = none := by
  cases task with
  | registerServing req =>
    simp only [Task.proceed] at h
    split at h
    · cases h
    · rename_i hregister
      unfold Store.registerServingBinding at hregister
      simp only [Task.reserves]
      refine if_pos ?_
      split at hregister
      · rename_i hdimension
        exact .inl hdimension
      · split at hregister
        · cases hregister
        · split at hregister
          · rename_i hlive
            exact .inr (.inr hlive)
          · cases hregister
  | createBinding req source =>
    have hcreate := Option.map_eq_none_iff.mp h
    unfold Store.createBinding at hcreate
    split at hcreate
    · rename_i hlive
      exact if_pos hlive
    · cases hcreate
  | _ => rfl

/-- A step comes off, or it raises. -/
theorem act_cases (h : task.act naming s outcome = some (s', task')) :
    outcome = .done ∧ task.proceed naming s = some (s', task') ∨
      (outcome = .done → task.proceed naming s = none) ∧ task.raise naming s = (s', task') := by
  cases outcome with
  | done =>
    simp only [Task.act] at h
    split at h
    · cases h
    · cases hproceed : task.proceed naming s with
      | some next =>
        rw [hproceed] at h
        exact .inl ⟨rfl, congrArg some (Option.some.inj h)⟩
      | none =>
        rw [hproceed] at h
        exact .inr ⟨fun _ => rfl, Option.some.inj h⟩
  | raised =>
    simp only [Task.act] at h
    split at h
    · cases h
    · exact .inr ⟨nofun, Option.some.inj h⟩

/-- What a step does to the store. -/
theorem act_moves (hknows : task.Knows s) (h : task.act naming s outcome = some (s', task')) :
    s.Moves s' (task.reserves naming s outcome) := by
  rcases act_cases h with ⟨rfl, hproceed⟩ | ⟨hnone, hraise⟩
  · exact proceed_moves hknows hproceed
  · have hreserves : task.reserves naming s outcome = none := by
      cases outcome with
      | done => exact reserves_of_raises (hnone rfl)
      | raised => cases task <;> rfl
    have hmoves := @raise_moves s naming task
    rw [hraise] at hmoves
    rw [hreserves]
    exact hmoves

theorem knows_reclaiming {deleteCollections : Bool} (bindings : List Nat) :
    (Task.reclaiming deleteCollections bindings).Knows s := by
  cases bindings <;> trivial

theorem knows_purging {purge : Bool} (collection : Option String) :
    (Task.purging purge collection).Knows s := by
  cases collection with
  | none => trivial
  | some name => cases purge <;> trivial

theorem knows_target {migration target : Nat}
    (h : ∃ m, s.migrations[migration]? = some m ∧ m.targetBinding = target) {name : String}
    (hname : (s.bindings[target]?).map Binding.collectionName = some name) :
    ∃ m b, s.migrations[migration]? = some m ∧ s.bindings[m.targetBinding]? = some b ∧
      b.collectionName = name := by
  obtain ⟨m, hm, rfl⟩ := h
  obtain ⟨b, hb, rfl⟩ := Option.map_eq_some_iff.mp hname
  exact ⟨m, b, hm, hb, rfl⟩

/-- The steps after which a call may be about to delete. -/
def Task.mayDelete : Task → Bool
  | .lookupAgain _ | .rollback _ _ _ | .abandon _ _ _ | .retire _ _ => true
  | _ => false

theorem deletes_reclaiming {deleteCollections : Bool} (bindings : List Nat) :
    (Task.reclaiming deleteCollections bindings).deletes = none := by
  cases bindings <;> rfl

/-- What a call has read it still knows after its own step. -/
theorem act_next (hknows : task.Knows s) (h : task.act naming s outcome = some (s', task')) :
    task'.Knows s' ∧ (task.mayDelete = false → task'.deletes = none) := by
  rcases act_cases h with ⟨-, hproceed⟩ | ⟨-, hraise⟩
  · cases task with
    | getServing req =>
      simp only [Task.proceed] at hproceed
      split at hproceed
      · split at hproceed <;> cases hproceed
        exact ⟨trivial, fun _ => rfl⟩
      · split at hproceed <;> cases hproceed
        exact ⟨hknows, fun _ => rfl⟩
    | rollbackGet migration keepShadow =>
      cases hproceed
      split
      · rename_i m hm
        exact ⟨⟨m, hm, rfl⟩, fun _ => rfl⟩
      · exact ⟨trivial, fun _ => rfl⟩
    | rollbackBinding migration keepShadow target =>
      cases hproceed
      refine ⟨?_, fun _ => rfl⟩
      cases hname : (s.bindings[target]?).map Binding.collectionName with
      | none => trivial
      | some name => exact knows_target hknows hname
    | abortGet migration purgeShadow =>
      obtain ⟨m, hm, heq⟩ := Option.map_eq_some_iff.mp hproceed
      cases heq
      exact ⟨⟨m, hm, rfl⟩, fun _ => rfl⟩
    | abortBinding migration purgeShadow target =>
      cases hproceed
      refine ⟨?_, fun _ => rfl⟩
      cases hname : (s.bindings[target]?).map Binding.collectionName with
      | none => trivial
      | some name => exact knows_target hknows hname
    | registerServing req =>
      simp only [Task.proceed] at hproceed
      split at hproceed
      · cases hproceed
        split <;> exact ⟨trivial, fun _ => rfl⟩
      · cases hproceed
    | probe req source =>
      simp only [Task.proceed] at hproceed
      split at hproceed
      · split at hproceed <;> cases hproceed
        exact ⟨trivial, fun _ => rfl⟩
      · cases hproceed
    | lookup req source =>
      simp only [Task.proceed] at hproceed
      split at hproceed <;> cases hproceed <;> exact ⟨trivial, fun _ => rfl⟩
    | priorMigration req source reserved =>
      cases hproceed
      unfold Task.afterPrior
      split
      · exact ⟨trivial, fun _ => rfl⟩
      · split <;> exact ⟨trivial, fun _ => rfl⟩
    | ensure req source reserved =>
      cases hproceed
      cases reserved <;> exact ⟨trivial, fun _ => rfl⟩
    | lookupAgain name =>
      cases hproceed
      split <;> exact ⟨trivial, nofun⟩
    | embed migration => cases hproceed; exact ⟨trivial, fun _ => rfl⟩
    | rollback migration keepShadow collection =>
      obtain ⟨s₁, -, heq⟩ := Option.map_eq_some_iff.mp hproceed
      cases heq
      exact ⟨knows_purging _, nofun⟩
    | abandon migration purgeShadow collection =>
      obtain ⟨s₁, -, heq⟩ := Option.map_eq_some_iff.mp hproceed
      cases heq
      exact ⟨knows_purging _, nofun⟩
    | listReclaimable now deleteCollections =>
      cases hproceed
      exact ⟨knows_reclaiming _, fun _ => deletes_reclaiming _⟩
    | retire deleteCollections bindings =>
      cases bindings with
      | nil => cases hproceed; exact ⟨trivial, nofun⟩
      | cons binding bindings =>
        simp only [Task.proceed] at hproceed
        split at hproceed
        · cases hproceed
          split
          · exact ⟨trivial, nofun⟩
          · exact ⟨knows_reclaiming _, nofun⟩
        · cases hproceed
          exact ⟨knows_reclaiming _, nofun⟩
    | delete collection bindings =>
      cases hproceed
      exact ⟨knows_reclaiming _, fun _ => deletes_reclaiming _⟩
    | finished => cases hproceed
    | _ =>
      obtain ⟨found, -, heq⟩ := Option.map_eq_some_iff.mp hproceed
      cases heq
      exact ⟨trivial, fun _ => rfl⟩
  · cases task with
    | delete collection bindings =>
      obtain ⟨-, rfl⟩ := Prod.mk.inj hraise
      exact ⟨knows_reclaiming _, fun _ => deletes_reclaiming _⟩
    | lookupAgain name =>
      obtain ⟨-, rfl⟩ := Prod.mk.inj hraise
      exact ⟨trivial, nofun⟩
    | _ =>
      obtain ⟨-, rfl⟩ := Prod.mk.inj hraise
      exact ⟨trivial, fun _ => rfl⟩

/-! ## Which names are doomed -/

theorem deletes_purging {purge : Bool} {collection : Option String} :
    (Task.purging purge collection).deletes = some name ↔ purge = true ∧ collection = some name := by
  cases collection with
  | none => simp [Task.purging, Task.deletes]
  | some other => cases purge <;> simp [Task.purging, Task.deletes]

/-- Without a reservation no binding comes back, and none changes its name. -/
theorem Store.Changes.back (h : s.Changes s' none) {i : Nat} {d : Binding}
    (hi : s'.bindings[i]? = some d) :
    ∃ d₀, s.bindings[i]? = some d₀ ∧ d.collectionName = d₀.collectionName ∧
      (d.state ≠ .retired → d₀.state ≠ .retired) := by
  cases h with
  | quiet hquiet =>
    obtain ⟨d₀, hi, hages⟩ := hquiet.back hi
    exact ⟨d₀, hi, hages.1, hages.live⟩
  | flips hflips => exact hflips.back hi

/-- The name of a binding that was not retired is free once the binding is. -/
theorem not_live_of_retired {i : Nat} {b : Binding} (hs : s.Consistent) (h : s.Changes s' none)
    (hi : s.bindings[i]? = some b) (hb : b.state ≠ .retired)
    (hretired : ∀ d, s'.bindings[i]? = some d → d.state = .retired) :
    s'.live b.collectionName = false := by
  refine Bool.eq_false_iff.mpr fun hlive => ?_
  obtain ⟨j, d, hj, hname, hd⟩ := live_iff.mp hlive
  obtain ⟨d₀, hj₀, hsame, hd₀⟩ := h.back hj
  obtain rfl := hs.names i j b d₀ hi hj₀ hb (hd₀ hd) (hname.symm.trans hsame)
  exact hd (hretired d hj)

theorem retireBinding_frees {binding : Nat} (hs : s.Consistent)
    (h : s.retireBinding binding = some (s', name)) : s'.live name = false := by
  have hmoves := retireBinding_moves h
  unfold Store.retireBinding at h
  split at h
  · rename_i b hb
    split at h
    · rename_i hretained
      cases h
      refine not_live_of_retired hs hmoves.changes hb (by rw [hretained]; nofun) fun d hd => ?_
      simp only [Store.setBinding, List.getElem?_modify, hb, if_true] at hd
      cases hd
      rfl
    · cases h
  · cases h

theorem rollbackMigration_frees {migration : Nat} {m : Migration} {b : Binding} (hs : s.Consistent)
    (hm : s.migrations[migration]? = some m) (hb : s.bindings[m.targetBinding]? = some b)
    (h : s.rollbackMigration migration false = some s') : s'.live b.collectionName = false := by
  have hmoves := rollbackMigration_moves h
  unfold Store.rollbackMigration at h
  rw [hm] at h
  simp only at h
  split at h
  · rename_i src tgt hsrc htgt
    rw [hb] at htgt
    cases htgt
    split at h
    · rename_i hguard
      obtain ⟨-, hretained, hserving, -⟩ := hguard
      have hne : m.sourceBinding ≠ m.targetBinding := by
        intro heq
        rw [heq, hb] at hsrc
        cases hsrc
        rw [hserving] at hretained
        cases hretained
      cases h
      refine not_live_of_retired hs hmoves.changes hb (by rw [hserving]; nofun) fun d hd => ?_
      simp only [Store.setMigration, Store.setBinding, List.getElem?_modify, hne, hb, if_true,
        if_false] at hd
      cases hd
      rfl
    · cases h
  · cases h

/-- An abort frees the name of its target if that is a shadow, and does nothing to the
    bindings otherwise. -/
theorem abandonMigration_live {migration : Nat} {m : Migration} {b : Binding} (hs : s.Consistent)
    (hm : s.migrations[migration]? = some m) (hb : s.bindings[m.targetBinding]? = some b)
    (h : s.abandonMigration migration = some s') :
    s'.live b.collectionName = true ↔
      s.targetsShadow migration = false ∧ s.live b.collectionName = true := by
  have hmoves := abandonMigration_moves h
  have htargets : s.targetsShadow migration = decide (b.state = .shadow) := by
    simp [Store.targetsShadow, hm, hb]
  unfold Store.abandonMigration at h
  rw [hm] at h
  simp only at h
  split at h
  · cases h
    rw [htargets]
    by_cases hshadow : b.state = .shadow
    · rw [decide_eq_true hshadow]
      refine iff_of_false (Bool.eq_false_iff.mp ?_) fun h => by cases h.1
      refine not_live_of_retired hs hmoves.changes hb (by rw [hshadow]; nofun) fun d hd => ?_
      simp only [Store.setMigration, Store.setBinding, List.getElem?_modify, hb, if_true] at hd
      rw [Option.map_eq_map, Option.map_some, if_pos hshadow] at hd
      cases hd
      rfl
    · rw [decide_eq_false hshadow]
      have hbindings : s.bindings.modify m.targetBinding
          (fun b => if b.state = .shadow then { b with state := .retired } else b) = s.bindings := by
        rw [List.modify_eq_set_getElem?, hb]
        simp only [Option.map_eq_map, Option.map_some, Option.getD_some, if_neg hshadow]
        obtain ⟨hlt, rfl⟩ := List.getElem?_eq_some_iff.mp hb
        exact List.set_getElem_self hlt
      simp only [Store.live, Store.setMigration, Store.setBinding, hbindings, true_and]
  · cases h

/-- After its own step a call is about to delete a live name exactly when the step dooms
    it. -/
theorem act_dooms (hs : s.Consistent) (hknows : task.Knows s)
    (h : task.act naming s outcome = some (s', task')) :
    task.dooms s outcome = true ↔ ∃ name, task'.deletes = some name ∧ s'.live name = true := by
  have hother : task.mayDelete = false →
      (task.dooms s outcome = true ↔ ∃ name, task'.deletes = some name ∧ s'.live name = true) := by
    intro hno
    refine iff_of_false ?_ fun ⟨name, hname, _⟩ => ?_
    · cases task with
      | lookupAgain name => cases hno
      | abandon migration purgeShadow collection => cases hno
      | _ => exact nofun
    · rw [(act_next hknows h).2 hno] at hname
      cases hname
  cases task with
  | lookupAgain name =>
    rcases act_cases h with ⟨rfl, hproceed⟩ | ⟨hnone, hraise⟩
    · cases hproceed
      refine iff_of_false nofun fun ⟨name', hname, hlive⟩ => ?_
      split at hname
      · rename_i hlookup
        cases hname
        rw [not_live_of_lookup (Option.isNone_iff_eq_none.mp hlookup)] at hlive
        cases hlive
      · cases hname
    · cases outcome with
      | done => cases hnone rfl
      | raised =>
        obtain ⟨rfl, rfl⟩ := Prod.mk.inj hraise
        exact ⟨fun hlive => ⟨name, rfl, hlive⟩, fun ⟨_, hname, hlive⟩ => Option.some.inj hname ▸ hlive⟩
  | rollback migration keepShadow collection =>
    refine iff_of_false nofun fun ⟨name, hname, hlive⟩ => ?_
    rcases act_cases h with ⟨rfl, hproceed⟩ | ⟨-, hraise⟩
    · obtain ⟨s₁, hrollback, heq⟩ := Option.map_eq_some_iff.mp hproceed
      cases heq
      obtain ⟨hkeep, rfl⟩ := deletes_purging.mp hname
      obtain ⟨m, b, hm, hb, rfl⟩ := hknows
      rw [Bool.not_eq_eq_eq_not.mp hkeep] at hrollback
      rw [rollbackMigration_frees hs hm hb hrollback] at hlive
      cases hlive
    · obtain ⟨-, rfl⟩ := Prod.mk.inj hraise
      cases hname
  | abandon migration purgeShadow collection =>
    rcases act_cases h with ⟨rfl, hproceed⟩ | ⟨hnone, hraise⟩
    · obtain ⟨s₁, habandon, heq⟩ := Option.map_eq_some_iff.mp hproceed
      cases heq
      have hpurging : (∃ name, (Task.purging purgeShadow collection).deletes = some name ∧
          s'.live name = true) ↔ purgeShadow = true ∧ ∃ name, collection = some name ∧ s'.live name = true := by
        simp only [deletes_purging, and_assoc, exists_and_left]
      rw [hpurging]
      cases purgeShadow with
      | false => exact iff_of_false nofun fun h => by cases h.1
      | true =>
        cases collection with
        | none => exact iff_of_false nofun fun ⟨_, _, hname, _⟩ => by cases hname
        | some name =>
          obtain ⟨m, b, hm, hb, rfl⟩ := hknows
          have hlive := abandonMigration_live hs hm hb habandon
          simp only [Task.dooms, habandon, Option.isSome_some, Bool.true_and, Bool.and_eq_true,
            Bool.not_eq_eq_eq_not, Bool.not_true]
          rw [← hlive]
          simp
    · obtain ⟨-, rfl⟩ := Prod.mk.inj hraise
      refine iff_of_false ?_ fun ⟨_, hname, _⟩ => by cases hname
      cases outcome with
      | raised => cases purgeShadow <;> cases collection <;> exact nofun
      | done =>
        have habandon := Option.map_eq_none_iff.mp (hnone rfl)
        cases purgeShadow with
        | false => exact nofun
        | true =>
          cases collection with
          | none => exact nofun
          | some name => simp [Task.dooms, habandon]
  | retire deleteCollections bindings =>
    refine iff_of_false nofun fun ⟨name, hname, hlive⟩ => ?_
    rcases act_cases h with ⟨rfl, hproceed⟩ | ⟨-, hraise⟩
    · cases bindings with
      | nil =>
        cases hproceed
        cases hname
      | cons binding bindings =>
        simp only [Task.proceed] at hproceed
        split at hproceed
        · rename_i s₁ collection hretire
          cases hproceed
          split at hname
          · cases hname
            rw [retireBinding_frees hs hretire] at hlive
            cases hlive
          · rw [deletes_reclaiming] at hname
            cases hname
        · cases hproceed
          rw [deletes_reclaiming] at hname
          cases hname
    · obtain ⟨-, rfl⟩ := Prod.mk.inj hraise
      cases hname
  | _ => exact hother rfl

/-! ## Every run -/

abbrev ServiceMove := PoolMove Store Task Outcome Empty

/-- The step deletes a collection whose name a binding carries that is not retired. -/
def deletesLive (x : ServiceMove) : Bool :=
  match x.input with
  | .step i .done =>
      x.pre.threads[i]?.any fun task => task.deletes.any fun name => x.pre.shared.live name
  | _ => false

/-- The step reserves a name that another call is about to delete, or makes a call about
    to delete a name that is reserved. -/
def endangers (naming : Naming) (x : ServiceMove) : Bool :=
  match x.input with
  | .step i outcome =>
      x.pre.threads[i]?.any fun task =>
        task.dooms x.pre.shared outcome ||
          (task.reserves naming x.pre.shared outcome).any fun name =>
            x.pre.threads.any fun other => decide (other.deletes = some name)
  | _ => false

/-- At most one binding is serving, and the row of the dataset is that of the binding. -/
structure ServesOnce (s : Store) : Prop where
  one : ∀ (i j : Nat) (b c : Binding), s.bindings[i]? = some b → s.bindings[j]? = some c →
    b.state = .serving → c.state = .serving → i = j
  row : ∀ b ∈ s.bindings, b.state = .serving →
    s.dataset.collectionName = b.collectionName ∧ s.dataset.identity = b.identity

/-- No call is about to delete a name that a binding carries. -/
def Safe (pool : Pool Store Task) : Prop :=
  ∀ task ∈ pool.threads, ∀ name, task.deletes = some name → pool.shared.live name = false

structure PoolOk (pool : Pool Store Task) : Prop where
  consistent : pool.shared.Consistent
  knows : ∀ task ∈ pool.threads, task.Knows pool.shared

variable {x : ServiceMove} {pool : Pool Store Task}

theorem Store.Consistent.servesOnce (hs : s.Consistent) : ServesOnce s where
  one := hs.serving
  row b hmem hb := by
    rw [hs.dataset b hmem hb]
    exact ⟨rfl, rfl⟩

theorem knows_admitted (h : task.admits s = true) : task.Knows s := by
  cases task with
  | getServing req => exact fun _ => (of_decide_eq_true h).1
  | _ => trivial

theorem deletes_admitted (h : task.admits s = true) : task.deletes = none := by
  cases task with
  | delete collection bindings => cases h
  | _ => rfl

theorem poolOk_step (hx : (service naming).machine.Makes x) (hok : PoolOk x.pre) : PoolOk x.post := by
  rcases Pool.makes_cases hx with ⟨task, -, hadmits, hpost⟩ | ⟨i, outcome, task, task', hacts⟩ | ⟨event, -⟩
  · rw [hpost]
    refine ⟨hok.consistent, fun other hother => ?_⟩
    rcases List.mem_append.mp hother with hother | hother
    · exact hok.knows other hother
    · rw [List.mem_singleton.mp hother]
      exact knows_admitted hadmits
  · have hmem := List.mem_of_getElem? hacts.found
    have hact : task.act naming x.pre.shared outcome = some (x.post.shared, task') := hacts.act
    have hmoves := act_moves (hok.knows task hmem) hact
    refine ⟨hmoves.changes.consistent hok.consistent, fun other hother => ?_⟩
    obtain ⟨j, hj⟩ := List.mem_iff_getElem?.mp hother
    rcases (Pool.getElem?_set_iff hacts.found).mp (hacts.threads ▸ hj) with ⟨-, rfl⟩ | ⟨-, hj⟩
    · exact (act_next (hok.knows task hmem) hact).1
    · exact (hok.knows other (List.mem_of_getElem? hj)).mono hmoves.extends
  · exact event.elim

theorem endangers_acts {i : Nat} (hacts : Pool.Acts (service naming) x i outcome task task') :
    endangers naming x = true ↔
      task.dooms x.pre.shared outcome = true ∨
        ∃ name, task.reserves naming x.pre.shared outcome = some name ∧
          ∃ other ∈ x.pre.threads, other.deletes = some name := by
  rw [endangers, hacts.input]
  simp only [hacts.found, Option.any_some, Bool.or_eq_true, Option.any_eq_true, List.any_eq_true,
    decide_eq_true_eq]

/-- A call that reserves a name deletes nothing. -/
theorem deletes_of_reserves (h : task.reserves naming s outcome = some name) : task.deletes = none := by
  cases task with
  | delete collection bindings => cases h
  | _ => rfl

/-- A step leaves every call safe exactly when it endangers nothing. -/
theorem safe_step (hx : (service naming).machine.Makes x) (hok : PoolOk x.pre) (hsafe : Safe x.pre) :
    Safe x.post ↔ endangers naming x = false := by
  rcases Pool.makes_cases hx with ⟨task, hinput, hadmits, hpost⟩ | ⟨i, outcome, task, task', hacts⟩ |
    ⟨event, -⟩
  · refine iff_of_true ?_ (by rw [endangers, hinput])
    rw [hpost]
    intro other hother name hname
    rcases List.mem_append.mp hother with hother | hother
    · exact hsafe other hother name hname
    · rw [List.mem_singleton.mp hother, deletes_admitted hadmits] at hname
      cases hname
  · have hmem := List.mem_of_getElem? hacts.found
    have hact : task.act naming x.pre.shared outcome = some (x.post.shared, task') := hacts.act
    have hmoves := act_moves (hok.knows task hmem) hact
    have hdooms := act_dooms hok.consistent (hok.knows task hmem) hact
    have hthread : ∀ {j : Nat} {other : Task}, x.post.threads[j]? = some other ↔
        i = j ∧ task' = other ∨ i ≠ j ∧ x.pre.threads[j]? = some other := by
      intro j other
      rw [hacts.threads]
      exact Pool.getElem?_set_iff hacts.found
    rw [← Bool.not_eq_true, endangers_acts hacts]
    constructor
    · rintro hpost (hdoomed | ⟨name, hreserves, other, hother, hname⟩)
      · obtain ⟨name, hname, hlive⟩ := hdooms.mp hdoomed
        have hself : task' ∈ x.post.threads := List.mem_of_getElem? (hthread.mpr (.inl ⟨rfl, rfl⟩))
        rw [hpost task' hself name hname] at hlive
        cases hlive
      · obtain ⟨j, hj⟩ := List.mem_iff_getElem?.mp hother
        have hne : i ≠ j := by
          rintro rfl
          rw [hacts.found] at hj
          cases hj
          rw [deletes_of_reserves hreserves] at hname
          cases hname
        have hlive := (hreserves ▸ hmoves.changes).reserved_live
        rw [hpost other (List.mem_of_getElem? (hthread.mpr (.inr ⟨hne, hj⟩))) name hname] at hlive
        cases hlive
    · intro hnot other hother name hname
      refine Bool.eq_false_iff.mpr fun hlive => ?_
      obtain ⟨j, hj⟩ := List.mem_iff_getElem?.mp hother
      rcases hthread.mp hj with ⟨-, rfl⟩ | ⟨-, hj⟩
      · exact hnot (.inl (hdooms.mpr ⟨name, hname, hlive⟩))
      · have hpre := List.mem_of_getElem? hj
        rcases hmoves.changes.live hlive with hwas | hreserves
        · rw [hsafe other hpre name hname] at hwas
          cases hwas
        · exact hnot (.inr ⟨name, hreserves, other, hpre, hname⟩)
  · exact event.elim

/-- A safe call deletes nothing live. -/
theorem deletesLive_of_safe (hsafe : Safe x.pre) : deletesLive x = false := by
  unfold deletesLive
  split
  · rename_i i
    refine Bool.eq_false_iff.mpr fun hdeletes => ?_
    simp only [Option.any_eq_true] at hdeletes
    obtain ⟨task, hfound, name, hname, hlive⟩ := hdeletes
    rw [hsafe task (List.mem_of_getElem? hfound) name hname] at hlive
    cases hlive
  · rfl

/-- The calls are safe exactly when no step that can be made deletes a live collection. -/
theorem safe_iff : Safe pool ↔
    ∀ y : ServiceMove, (service naming).machine.Makes y → y.pre = pool → deletesLive y = false := by
  constructor
  · rintro hsafe y - rfl
    exact deletesLive_of_safe hsafe
  · intro h task htask name hname
    obtain ⟨i, hi⟩ := List.mem_iff_getElem?.mp htask
    cases task with
    | delete collection bindings =>
      cases hname
      have hmakes : (service naming).machine.Makes
          ⟨pool, .step i .done, (), ⟨pool.shared.deleteCollection name,
            pool.threads.set i (Task.reclaiming true bindings)⟩⟩ := by
        simp [Machine.Makes, Program.machine, hi, service, Task.act, Task.proceed]
      have hlive := h _ hmakes rfl
      simpa [deletesLive, hi, Task.deletes] using hlive
    | _ => cases hname

/-- At every state of a run one binding serves at most and the row of the dataset is its
    own, and no collection is deleted that a binding carries, neither by the steps of the
    run nor by one that can follow, exactly when no step endangers a name. -/
theorem no_live_collection_deleted {tr : List ServiceMove} {final : Pool Store Task}
    (hs : s.Consistent) (h : Run (service naming).machine ⟨s, []⟩ tr final) :
    (∀ x ∈ tr, ServesOnce x.post.shared ∧ deletesLive x = false ∧
        ∀ y : ServiceMove, (service naming).machine.Makes y → y.pre = x.post → deletesLive y = false) ↔
      ∀ x ∈ tr, endangers naming x = false := by
  have hstart : PoolOk ⟨s, []⟩ := ⟨hs, nofun⟩
  have hempty : Safe ⟨s, []⟩ := nofun
  have hiff : (∀ x ∈ tr, Safe x.post) ↔ ∀ x ∈ tr, endangers naming x = false :=
    Run.forall_iff (P := PoolOk) (fun _ hx hok _ => poolOk_step hx hok) (fun _ => safe_step) h hstart
      hempty
  constructor
  · intro hall
    exact hiff.mp fun x hx => safe_iff.mpr (hall x hx).2.2
  · intro hnone x hx
    obtain ⟨hmem, -⟩ := Run.invariant_when (P := fun pool => PoolOk pool ∧ Safe pool)
      (fun _ hx hC hP => ⟨poolOk_step hx hP.1, (safe_step hx hP.1 hP.2).mpr hC⟩) h hnone ⟨hstart, hempty⟩
    obtain ⟨⟨-, hpre⟩, hok, hpost⟩ := hmem x hx
    exact ⟨hok.consistent.servesOnce, deletesLive_of_safe hpre, safe_iff.mp hpost⟩

theorem consistent_fresh {dataset : Dataset} {migrations : List Migration} {collections : List String} :
    Store.Consistent ⟨dataset, [], migrations, collections⟩ where
  names _ _ _ _ hi := by cases hi
  serving _ _ _ _ hi := by cases hi
  dataset _ hb := by cases hb

/-- A call that comes in at place `i` and makes `n` steps that come off. -/
def inputsOf (task : Task) (i n : Nat) : List (PoolInput Task Outcome Empty) :=
  .spawn task :: List.replicate n (.step i .done)

/-- A migration to another model is aborted with its collection, and started again. -/
theorem no_live_collection_deleted_restart :
    ∃ tr final, Run (service ⟨"d", EmbeddingIdentity.model⟩).machine
        ⟨⟨⟨"kb_d_8", "p", "a", "", 8⟩, [], [], []⟩, []⟩ tr final ∧
      (∃ b ∈ final.shared.bindings, b.collectionName = "kb_d_8_vb" ∧ b.state = .shadow) ∧
      ((∀ x ∈ tr, ServesOnce x.post.shared ∧ deletesLive x = false ∧
          ∀ y : ServiceMove, (service ⟨"d", EmbeddingIdentity.model⟩).machine.Makes y →
            y.pre = x.post → deletesLive y = false) ↔
        ∀ x ∈ tr, endangers ⟨"d", EmbeddingIdentity.model⟩ x = false) := by
  obtain ⟨tr, final, hexec, hshadow⟩ :
      ∃ tr final, (service ⟨"d", EmbeddingIdentity.model⟩).machine.exec
          ⟨⟨⟨"kb_d_8", "p", "a", "", 8⟩, [], [], []⟩, []⟩
          (inputsOf (.getServing ⟨⟨"kb_d_8", "p", "a", "", 8⟩, ⟨"p", "b", "", 8⟩, ""⟩) 0 7 ++
            inputsOf (.abortGet 0 true) 1 4 ++
            inputsOf (.getServing ⟨⟨"kb_d_8", "p", "a", "", 8⟩, ⟨"p", "b", "", 8⟩, ""⟩) 2 6) =
          some (tr, final) ∧
        ∃ b ∈ final.shared.bindings, b.collectionName = "kb_d_8_vb" ∧ b.state = .shadow :=
    ⟨_, _, rfl, _, List.mem_of_getLast? rfl, rfl, rfl⟩
  have hrun := Machine.run_of_exec hexec
  exact ⟨tr, final, hrun, hshadow, no_live_collection_deleted consistent_fresh hrun⟩

/-- One call after the other: a migration is cut over and rolled back without keeping
    its shadow, a second one to the same target is cut over, and the first one is then
    aborted: the collection that serves is deleted. -/
theorem late_abort_deletes_serving :
    ¬ ∀ (naming : Naming) (s : Store) (tr : List ServiceMove) (final : Pool Store Task),
      s.Consistent → Run (service naming).machine ⟨s, []⟩ tr final →
      ∀ x ∈ tr, ServesOnce x.post.shared ∧ deletesLive x = false := by
  intro h
  obtain ⟨tr, final, hexec, x, hx, hdeletes⟩ :
      ∃ tr final, (service ⟨"d", EmbeddingIdentity.model⟩).machine.exec
          ⟨⟨⟨"kb_d_8", "p", "a", "", 8⟩, [], [], []⟩, []⟩
          (inputsOf (.getServing ⟨⟨"kb_d_8", "p", "a", "", 8⟩, ⟨"p", "b", "", 8⟩, ""⟩) 0 7 ++
            inputsOf (.enterBackfill 0) 1 2 ++ inputsOf (.verify 0) 2 1 ++
            inputsOf (.enterGate 0) 3 2 ++ inputsOf (.cutoverGet 0 100) 4 2 ++
            inputsOf (.rollbackGet 0 false) 5 4 ++
            inputsOf (.getServing ⟨⟨"kb_d_8", "p", "a", "", 8⟩, ⟨"p", "b", "", 8⟩, ""⟩) 6 6 ++
            inputsOf (.enterBackfill 1) 7 2 ++ inputsOf (.verify 1) 8 1 ++
            inputsOf (.enterGate 1) 9 2 ++ inputsOf (.cutoverGet 1 100) 10 2 ++
            inputsOf (.abortGet 0 true) 11 4) = some (tr, final) ∧
        ∃ x ∈ tr, deletesLive x = true :=
    ⟨_, _, rfl, _, List.mem_of_getLast? rfl, rfl⟩
  have hkept := (h _ _ tr final consistent_fresh (Machine.run_of_exec hexec) x hx).2
  rw [hdeletes] at hkept
  cases hkept

end AiPlatform.Knowledge.Embedding
