/-
  AiPlatform.Knowledge.MmrSelect

  Maximal marginal relevance (`mmr_select` of `retrieval.py`): in each round the
  candidate with the best balance of relevance and novelty.

  The numbers are those of any field with an order and a square root.
-/

import AiPlatform.Gateway.PythonText
import AiPlatform.Lib.Assoc
import AiPlatform.Lib.FirstMax
import Mathlib.Algebra.BigOperators.Group.List.Basic
import Mathlib.Algebra.Field.Basic
import Mathlib.Data.Finset.Card

namespace AiPlatform.Knowledge

open FirstMax

structure MmrPick (α : Type) where
  itemId : String
  mmrScore : α
  relevance : α
  maxSimToSelected : α

abbrev MmrPicks (α : Type) := List (String × MmrPick α)

inductive FillPolicy where
  | strict
  | fill
  deriving DecidableEq, Repr

inductive MmrError where
  | unknownFillPolicy (given : String)
  deriving DecidableEq, Repr

def parseFillPolicy (fillPolicy : Option String) : Except MmrError FillPolicy :=
  match fillPolicy with
  | none => .ok .strict
  | some text =>
    let policy := Gateway.lower (Gateway.strip text)
    if policy = "strict" then .ok .strict
    else if policy = "fill" then .ok .fill
    else .error (.unknownFillPolicy text)

section

variable {α : Type} [Field α] [LinearOrder α]

/-! ## Vectors -/

/-- `_mmr_unit_vector` -/
def mmrUnitVector (sqrt : α → α) (vec : Option (List α)) : Option (List α) :=
  match vec with
  | none | some [] => none
  | some vec =>
    let norm := sqrt (vec.map fun x => x * x).sum
    if norm ≤ 0 then none else some (vec.map (· / norm))

def dot (u v : List α) : α := (List.zipWith (· * ·) u v).sum

/-- The arrays of the loop, one entry for each candidate. -/
structure Slot (α : Type) where
  itemId : String
  relevance : α
  unit : Option (List α)
  alive : Bool
  maxSim : α

def zeroRow (dim : Nat) : List α := List.replicate dim 0

def matrixRow (dim : Nat) (unit : Option (List α)) : List α :=
  match unit with
  | some unit => if unit.length = dim then unit else zeroRow dim
  | none => zeroRow dim

/-- The matrix of the unit vectors, if numpy is there and they have one length. -/
def matrixOf (numpy : Bool) (units : List (Option (List α))) : Option (List (List α)) :=
  match numpy, (units.filterMap fun unit => unit.map List.length).eraseDups with
  | true, [dim] => if dim = 0 then none else some (units.map (matrixRow dim))
  | _, _ => none

/-- `if s > max_sim[i]: max_sim[i] = s` of a candidate that is alive. -/
def Slot.raise (slot : Slot α) (s : α) : Slot α :=
  if slot.alive ∧ slot.maxSim < s then { slot with maxSim := s } else slot

/-- The similarity to the one picked goes into the maximum of each candidate. -/
def refreshMaxSim (mat : Option (List (List α))) (pickIdx : Nat) (slots : List (Slot α)) :
    List (Slot α) :=
  if slots.all fun slot => !slot.alive then slots
  else
    match mat with
    | some mat =>
      let picked := mat.getD pickIdx []
      List.zipWith (fun slot row => slot.raise (dot row picked)) slots mat
    | none =>
      match slots[pickIdx]?.bind Slot.unit with
      | none => slots
      | some picked => slots.map fun slot =>
        match slot.unit with
        | none => slot
        | some unit => if unit.length ≠ picked.length then slot else slot.raise (dot unit picked)

/-! ## The loop -/

structure MmrState (α : Type) where
  slots : List (Slot α)
  selected : List String
  picks : MmrPicks α

section

variable (lam : α) (threshold : Option α) (mat : Option (List (List α)))

/-- `-1e30`, as the double it is. -/
def lowest : α := -1000000000000000019884624838656

/-- Rejection is permanent. -/
def rejectSimilar (state : MmrState α) : List (Slot α) :=
  match threshold with
  | some threshold =>
    if state.selected = [] then state.slots
    else state.slots.map fun slot =>
      if slot.alive ∧ threshold ≤ slot.maxSim then { slot with alive := false } else slot
  | none => state.slots

def slotScore (entry : Slot α × Nat) : Option α :=
  if entry.1.alive then some (lam * entry.1.relevance - (1 - lam) * entry.1.maxSim) else none

/-- One round; none where every remaining candidate is rejected. -/
def mmrRound (state : MmrState α) : Option (MmrState α) :=
  let slots := rejectSimilar threshold state
  match scan (slotScore lam) lowest slots.zipIdx with
  | (some (slot, bestIdx), bestMmr) => some
    { slots := refreshMaxSim mat bestIdx
        (slots.modify bestIdx fun slot => { slot with alive := false })
      selected := state.selected ++ [slot.itemId]
      picks := Assoc.set slot.itemId ⟨slot.itemId, bestMmr, slot.relevance, slot.maxSim⟩
        state.picks }
  | (none, _) => none

def mmrRounds : Nat → MmrState α → MmrState α
  | 0, state => state
  | rounds + 1, state =>
    match mmrRound lam threshold mat state with
    | some next => mmrRounds rounds next
    | none => state

end

def fillStep (topK : Nat) (selected : List String) (cid : String) : List String :=
  if topK ≤ selected.length then selected
  else if cid ∈ selected then selected
  else selected ++ [cid]

/-- The candidates that were not selected, in their order, up to `top_k`. -/
def fillRemaining (topK : Nat) (remaining selected : List String) : List String :=
  remaining.foldl (fillStep topK) selected

/-- The candidates that are not empty. -/
def named (candidates : List String) : List String := candidates.filter (· ≠ "")

/-- `dict.fromkeys(c for c in candidates if c)` -/
def distinctCandidates (candidates : List String) : List String :=
  (named candidates).eraseDups

/-- `max(0.0, min(1.0, lam))` -/
def clamped (lambdaMult : α) : α := max 0 (min 1 lambdaMult)

/-- `mmr_select` -/
def mmrSelect (numpy : Bool) (sqrt : α → α) (candidates : List String)
    (relevance : String → Option α) (vectors : String → Option (List α)) (topK : Int)
    (lambdaMult : α) (similarityThreshold : Option α) (fillPolicy : Option String) :
    Except MmrError (List String × MmrPicks α) :=
  if candidates = [] ∨ topK ≤ 0 then .ok ([], [])
  else do
    let policy ← parseFillPolicy fillPolicy
    let remaining := distinctCandidates candidates
    if remaining = [] then .ok ([], [])
    else
      let slots := remaining.map fun cid =>
        { itemId := cid, relevance := (relevance cid).getD 0
          unit := mmrUnitVector sqrt (vectors cid), alive := true, maxSim := 0 : Slot α }
      let state := mmrRounds (clamped lambdaMult) similarityThreshold (matrixOf numpy (slots.map Slot.unit))
        (min topK.toNat remaining.length) ⟨slots, [], []⟩
      let selected :=
        if policy = .fill ∧ state.selected.length < topK.toNat then
          fillRemaining topK.toNat remaining state.selected
        else state.selected
      .ok (selected, state.picks)

/-! ## The plain algorithm -/

/-- The cosine of two unit vectors; nothing is similar to a missing one. -/
def similarity (u v : Option (List α)) : α :=
  match u, v with
  | some u, some v => if u.length = v.length then dot u v else 0
  | _, _ => 0

section

variable (unit : String → Option (List α)) (relevance : String → α) (lam : α)
  (threshold : Option α)

/-- The greatest similarity to what is selected, from 0 on. -/
def plainMaxSim (selected : List String) (cid : String) : α :=
  (selected.map fun other => similarity (unit cid) (unit other)).foldl max 0

def tooSimilar (selected : List String) (sim : α) : Bool :=
  match threshold with
  | some threshold => decide (selected ≠ [] ∧ threshold ≤ sim)
  | none => false

/-- None for a candidate that is too similar. -/
def plainScore (selected : List String) (cid : String) : Option α :=
  let sim := plainMaxSim unit selected cid
  if tooSimilar threshold selected sim then none
  else some (lam * relevance cid - (1 - lam) * sim)

/-- The loop over what remains, all similarities being taken anew in each round. -/
def plainRounds : Nat → List String → List String × MmrPicks α → List String × MmrPicks α
  | 0, _, found => found
  | rounds + 1, remaining, (selected, picks) =>
    match scan (plainScore unit relevance lam threshold selected) lowest remaining with
    | (some cid, mmr) => plainRounds rounds (remaining.filter (· ≠ cid))
      (selected ++ [cid],
        Assoc.set cid ⟨cid, mmr, relevance cid, plainMaxSim unit selected cid⟩ picks)
    | (none, _) => (selected, picks)

end

def plainMmr (sqrt : α → α) (candidates : List String) (relevance : String → Option α)
    (vectors : String → Option (List α)) (topK : Int) (lambdaMult : α)
    (similarityThreshold : Option α) : List String × MmrPicks α :=
  plainRounds (fun cid => mmrUnitVector sqrt (vectors cid)) (fun cid => (relevance cid).getD 0)
    (clamped lambdaMult) similarityThreshold topK.toNat (named candidates) ([], [])

end

/-! ## The running maxima -/

section

variable {α : Type} [Field α]

theorem dot_zeroRow (u : List α) (dim : Nat) : dot u (zeroRow dim) = 0 := by
  refine List.sum_eq_zero fun x hx => ?_
  obtain ⟨i, hi⟩ := List.mem_iff_getElem?.mp hx
  rw [List.getElem?_zipWith_eq_some] at hi
  obtain ⟨a, b, -, hb, rfl⟩ := hi
  rw [List.eq_of_mem_replicate (List.mem_of_getElem? hb), mul_zero]

theorem zeroRow_dot (dim : Nat) (v : List α) : dot (zeroRow dim) v = 0 := by
  refine List.sum_eq_zero fun x hx => ?_
  obtain ⟨i, hi⟩ := List.mem_iff_getElem?.mp hx
  rw [List.getElem?_zipWith_eq_some] at hi
  obtain ⟨a, b, ha, -, rfl⟩ := hi
  rw [List.eq_of_mem_replicate (List.mem_of_getElem? ha), zero_mul]

/-- The rows of the matrix have the similarities as their products. -/
theorem dot_matrixRow {dim : Nat} {x y : Option (List α)}
    (hx : ∀ u, x = some u → u.length = dim) (hy : ∀ v, y = some v → v.length = dim) :
    dot (matrixRow dim x) (matrixRow dim y) = similarity x y := by
  cases x with
  | none => exact zeroRow_dot dim _
  | some u =>
    cases y with
    | none => exact dot_zeroRow _ dim
    | some v =>
      have hu := hx u rfl
      have hv := hy v rfl
      rw [matrixRow, matrixRow, if_pos hu, if_pos hv, similarity, if_pos (hu.trans hv.symm)]

@[simp] theorem similarity_none (u : Option (List α)) : similarity u none = 0 := by
  cases u <;> rfl

theorem matrixOf_eq_some {units : List (Option (List α))} {numpy : Bool} {mat : List (List α)}
    (h : matrixOf numpy units = some mat) : ∃ dim, mat = units.map (matrixRow dim) ∧
      ∀ unit ∈ units, ∀ u, unit = some u → u.length = dim := by
  unfold matrixOf at h
  split at h
  · rename_i dim hdims
    split at h
    · cases h
    · refine ⟨dim, (Option.some.inj h).symm, ?_⟩
      rintro unit hunit u rfl
      have hmem : u.length ∈ (units.filterMap fun unit => unit.map List.length).eraseDups :=
        List.mem_eraseDups.mpr (List.mem_filterMap.mpr ⟨some u, hunit, rfl⟩)
      rw [hdims] at hmem
      exact List.mem_singleton.mp hmem
  · cases h

end

section

variable {α : Type} [LinearOrder α] {slot : Slot α}

theorem raise_of_dead (h : slot.alive = false) (s : α) : slot.raise s = slot := by
  rw [Slot.raise, h]
  exact if_neg fun h => Bool.false_ne_true h.1

theorem raise_of_le {s : α} (h : slot.alive = true → s ≤ slot.maxSim) : slot.raise s = slot := by
  rw [Slot.raise, if_neg]
  exact fun hlt => not_lt_of_ge (h hlt.1) hlt.2

@[simp] theorem raise_itemId (s : α) : (slot.raise s).itemId = slot.itemId := by
  unfold Slot.raise
  split <;> rfl

@[simp] theorem raise_relevance (s : α) : (slot.raise s).relevance = slot.relevance := by
  unfold Slot.raise
  split <;> rfl

@[simp] theorem raise_unit (s : α) : (slot.raise s).unit = slot.unit := by
  unfold Slot.raise
  split <;> rfl

@[simp] theorem raise_alive (s : α) : (slot.raise s).alive = slot.alive := by
  unfold Slot.raise
  split <;> rfl

theorem raise_maxSim {s : α} (h : slot.alive = true) : (slot.raise s).maxSim = max slot.maxSim s := by
  unfold Slot.raise
  split
  · rename_i hlt
    exact (max_eq_right hlt.2.le).symm
  · rename_i hle
    exact (max_eq_left (not_lt.mp fun hlt => hle ⟨h, hlt⟩)).symm

end

section

variable {α : Type} [Field α] [LinearOrder α]
variable {slots : List (Slot α)} {slot : Slot α} {units : List (Option (List α))} {u v : List α}
  {unit : String → Option (List α)} {relevance : String → α} {threshold : Option α}
  {selected : List String} {cid : String}

/-- With or without the matrix, each candidate's maximum takes in its similarity to the
    one picked. -/
theorem refreshMaxSim_eq (numpy : Bool) {pickIdx : Nat} (hunits : slots.map Slot.unit = units)
    (hpick : slots[pickIdx]? = some slot)
    (hbase : ∀ other ∈ slots, other.alive = true → 0 ≤ other.maxSim) :
    refreshMaxSim (matrixOf numpy units) pickIdx slots =
      slots.map fun other => other.raise (similarity other.unit slot.unit) := by
  unfold refreshMaxSim
  split
  · rename_i hdead
    have hsame : ∀ other ∈ slots, other.raise (similarity other.unit slot.unit) = other := by
      intro other hother
      have := List.all_eq_true.mp hdead other hother
      exact raise_of_dead (by simpa using this) _
    rw [List.map_congr_left hsame, List.map_id']
  · cases hmat : matrixOf numpy units with
    | none =>
      dsimp only
      rw [hpick, Option.bind_some]
      cases hpicked : slot.unit with
      | none =>
        have hsame : ∀ other ∈ slots, other.raise (similarity other.unit none) = other := by
          intro other hother
          refine raise_of_le fun halive => ?_
          rw [similarity_none]
          exact hbase other hother halive
        rw [List.map_congr_left hsame, List.map_id']
      | some picked =>
        refine List.map_congr_left fun other hother => ?_
        cases hunit : other.unit with
        | none => exact (raise_of_le (hbase other hother)).symm
        | some unit =>
          dsimp only
          by_cases hlength : unit.length = picked.length
          · rw [if_neg (not_not.mpr hlength), similarity, if_pos hlength]
          · rw [if_pos hlength, similarity, if_neg hlength]
            exact (raise_of_le (hbase other hother)).symm
    | some mat =>
      obtain ⟨dim, rfl, hdim⟩ := matrixOf_eq_some hmat
      rw [← hunits] at hdim
      dsimp only
      rw [← hunits, List.map_map, List.zipWith_map_right, List.zipWith_self]
      refine List.map_congr_left fun other hother => ?_
      have hpicked : ((slots.map (matrixRow dim ∘ Slot.unit)).getD pickIdx []) =
          matrixRow dim slot.unit := by
        rw [List.getD_eq_getElem?_getD, List.getElem?_map, hpick]
        rfl
      rw [hpicked]
      have hmem := List.mem_of_getElem? hpick
      exact congrArg _ (dot_matrixRow (hdim _ (List.mem_map_of_mem hother))
        (hdim _ (List.mem_map_of_mem hmem)))

end

/-! ## The greatest similarities of a round -/

section

variable {α : Type} [Field α] [LinearOrder α]
variable {unit : String → Option (List α)} {relevance : String → α} {lam : α} {threshold : Option α}
  {selected : List String} {cid other : String}

theorem plainMaxSim_concat : plainMaxSim unit (selected ++ [other]) cid =
    max (plainMaxSim unit selected cid) (similarity (unit cid) (unit other)) := by
  rw [plainMaxSim, List.map_append, List.foldl_append]
  rfl

theorem zero_le_plainMaxSim : 0 ≤ plainMaxSim unit selected cid := by
  induction selected using List.reverseRecOn with
  | nil => exact le_rfl
  | append_singleton earlier last ih =>
    rw [plainMaxSim_concat]
    exact ih.trans (le_max_left _ _)

theorem similarity_le_plainMaxSim (h : other ∈ selected) :
    similarity (unit cid) (unit other) ≤ plainMaxSim unit selected cid := by
  induction selected using List.reverseRecOn with
  | nil => cases h
  | append_singleton earlier last ih =>
    rw [plainMaxSim_concat]
    rcases List.mem_append.mp h with h | h
    · exact (ih h).trans (le_max_left _ _)
    · obtain rfl := List.mem_singleton.mp h
      exact le_max_right _ _

omit [Field α] in
theorem tooSimilar_iff {sim : α} : tooSimilar threshold selected sim = true ↔
    selected ≠ [] ∧ ∃ t, threshold = some t ∧ t ≤ sim := by
  cases threshold with
  | none => simp [tooSimilar]
  | some t => simp [tooSimilar]

/-- What is rejected stays rejected. -/
theorem tooSimilar_concat (h : tooSimilar threshold selected (plainMaxSim unit selected cid) = true) :
    tooSimilar threshold (selected ++ [other]) (plainMaxSim unit (selected ++ [other]) cid) = true := by
  obtain ⟨-, t, ht, hle⟩ := tooSimilar_iff.mp h
  refine tooSimilar_iff.mpr ⟨List.append_ne_nil_of_right_ne_nil _ (List.cons_ne_nil _ _), t, ht, ?_⟩
  rw [plainMaxSim_concat]
  exact hle.trans (le_max_left _ _)

/-- No score either for what is selected. -/
def openScore (unit : String → Option (List α)) (relevance : String → α) (lam : α)
    (threshold : Option α) (selected : List String) (cid : String) : Option α :=
  if cid ∈ selected then none else plainScore unit relevance lam threshold selected cid

theorem openScore_eq_some {value : α}
    (h : openScore unit relevance lam threshold selected cid = some value) :
    cid ∉ selected ∧ tooSimilar threshold selected (plainMaxSim unit selected cid) = false ∧
      value = lam * relevance cid - (1 - lam) * plainMaxSim unit selected cid := by
  unfold openScore plainScore at h
  split at h
  · cases h
  · rename_i hnew
    dsimp only at h
    split at h
    · cases h
    · rename_i hsim
      exact ⟨hnew, Bool.not_eq_true _ ▸ hsim, (Option.some.inj h).symm⟩

theorem openScore_of_open (hnew : cid ∉ selected)
    (hsim : tooSimilar threshold selected (plainMaxSim unit selected cid) = false) :
    openScore unit relevance lam threshold selected cid =
      some (lam * relevance cid - (1 - lam) * plainMaxSim unit selected cid) := by
  simp only [openScore, plainScore, if_neg hnew, hsim, Bool.false_eq_true, if_false]

theorem openScore_of_closed (h : cid ∈ selected ∨
    tooSimilar threshold selected (plainMaxSim unit selected cid) = true) :
    openScore unit relevance lam threshold selected cid = none := by
  unfold openScore plainScore
  split
  · rfl
  · rename_i hnew
    exact if_pos (h.resolve_left hnew)

/-- The scan of what remains. -/
theorem scan_remaining {candidates : List String} (floor : α) :
    scan (plainScore unit relevance lam threshold selected) floor
        (candidates.filter fun cid => decide (cid ∉ selected)) =
      scan (openScore unit relevance lam threshold selected) floor candidates.eraseDups := by
  have hclosed : ∀ cid ∈ candidates, decide (cid ∉ selected) = false →
      openScore unit relevance lam threshold selected cid = none := fun cid _ hcid =>
    if_pos (not_not.mp (of_decide_eq_false hcid))
  rw [scan_eraseDups, ← scan_filter hclosed]
  refine scan_congr fun cid hcid => ?_
  exact (if_neg (of_decide_eq_true (List.mem_filter.mp hcid).2)).symm

end

/-! ## The loop keeps up with the plain one -/

/-- The arrays say of each candidate whether it is still to be had, and how similar it
    is to what is selected. -/
structure Tracks {α : Type} [Field α] [LinearOrder α] (ids : List String)
    (unit : String → Option (List α)) (relevance : String → α) (threshold : Option α)
    (slots : List (Slot α)) (selected : List String) : Prop where
  ids : slots.map Slot.itemId = ids
  relevances : ∀ slot ∈ slots, slot.relevance = relevance slot.itemId
  units : ∀ slot ∈ slots, slot.unit = unit slot.itemId
  alive : ∀ slot ∈ slots, slot.alive = true → slot.itemId ∉ selected ∧
    slot.maxSim = plainMaxSim unit selected slot.itemId
  dead : ∀ slot ∈ slots, slot.alive = false → slot.itemId ∈ selected ∨
    tooSimilar threshold selected (plainMaxSim unit selected slot.itemId) = true

section

variable {α : Type} [LinearOrder α] {threshold : Option α} {slot : Slot α} {state : MmrState α}

theorem mem_rejectSimilar (hslot : slot ∈ rejectSimilar threshold state) :
    ∃ other ∈ state.slots, slot = { other with alive := slot.alive } ∧
      slot.alive = (other.alive && !tooSimilar threshold state.selected other.maxSim) := by
  unfold rejectSimilar at hslot
  split at hslot
  · split at hslot
    · rename_i hnone
      refine ⟨slot, hslot, rfl, ?_⟩
      simp [tooSimilar, hnone]
    · rename_i t hsome
      obtain ⟨other, hother, rfl⟩ := List.mem_map.mp hslot
      refine ⟨other, hother, ?_⟩
      by_cases h : other.alive ∧ t ≤ other.maxSim
      · rw [if_pos h]
        exact ⟨rfl, by simp [tooSimilar, hsome, h.2]⟩
      · rw [if_neg h]
        refine ⟨rfl, ?_⟩
        cases halive : other.alive with
        | false => rfl
        | true =>
          have hlt : ¬ t ≤ other.maxSim := fun hle => h ⟨halive, hle⟩
          simp [tooSimilar, hlt]
  · refine ⟨slot, hslot, rfl, ?_⟩
    simp [tooSimilar]

theorem map_rejectSimilar {β : Type} (f : Slot α → β)
    (hf : ∀ slot alive, f { slot with alive } = f slot) :
    (rejectSimilar threshold state).map f = state.slots.map f := by
  unfold rejectSimilar
  split
  · split
    · rfl
    · rw [List.map_map]
      refine List.map_congr_left fun slot _ => ?_
      rw [Function.comp_apply]
      split
      · exact hf slot false
      · rfl
  · rfl

end

section

variable {α : Type} [Field α] [LinearOrder α]
variable {ids selected : List String} {unit : String → Option (List α)} {relevance : String → α}
  {lam : α} {threshold : Option α} {slots : List (Slot α)} {slot : Slot α} {state : MmrState α}

/-- After the rejection whatever is alive has a score. -/
theorem slotScore_reject (h : Tracks ids unit relevance threshold state.slots state.selected)
    (hslot : slot ∈ rejectSimilar threshold state) (index : Nat) :
    slotScore lam (slot, index) =
      openScore unit relevance lam threshold state.selected slot.itemId := by
  obtain ⟨other, hother, heq, hboth⟩ := mem_rejectSimilar hslot
  have hid : slot.itemId = other.itemId := by rw [heq]
  have hrelevance : slot.relevance = other.relevance := by rw [heq]
  have hmaxSim : slot.maxSim = other.maxSim := by rw [heq]
  unfold slotScore
  dsimp only
  rw [hid, hrelevance, hmaxSim, hboth]
  cases halive : other.alive with
  | false => exact (openScore_of_closed (h.dead other hother halive)).symm
  | true =>
    obtain ⟨hnew, hsim⟩ := h.alive other hother halive
    rw [Bool.true_and, hsim, h.relevances other hother]
    cases htoo : tooSimilar threshold state.selected
        (plainMaxSim unit state.selected other.itemId) with
    | false => exact (openScore_of_open hnew htoo).symm
    | true => exact (openScore_of_closed (.inr htoo)).symm

theorem Tracks.reject (h : Tracks ids unit relevance threshold state.slots state.selected) :
    Tracks ids unit relevance threshold (rejectSimilar threshold state) state.selected where
  ids := by rw [map_rejectSimilar _ fun _ _ => rfl, h.ids]
  relevances := by
    intro slot hslot
    obtain ⟨other, hother, heq, -⟩ := mem_rejectSimilar hslot
    rw [heq]
    exact h.relevances other hother
  units := by
    intro slot hslot
    obtain ⟨other, hother, heq, -⟩ := mem_rejectSimilar hslot
    rw [heq]
    exact h.units other hother
  alive := by
    intro slot hslot halive
    obtain ⟨other, hother, heq, hboth⟩ := mem_rejectSimilar hslot
    rw [halive] at hboth
    rw [heq]
    exact h.alive other hother (Bool.and_eq_true_iff.mp hboth.symm).1
  dead := by
    intro slot hslot hdead
    obtain ⟨other, hother, heq, hboth⟩ := mem_rejectSimilar hslot
    rw [hdead] at hboth
    rw [heq]
    cases halive : other.alive with
    | false => exact h.dead other hother halive
    | true =>
      rw [halive, Bool.true_and, (h.alive other hother halive).2] at hboth
      exact .inr (Bool.not_eq_eq_eq_not.mp hboth.symm)

omit [Field α] [LinearOrder α] in
/-- A candidate of the list after one was picked is the one, or has another id. -/
theorem mem_modify {index : Nat} {other : Slot α} {f : Slot α → Slot α}
    (hnodup : (slots.map Slot.itemId).Nodup) (hslot : slots[index]? = some slot)
    (hother : other ∈ slots.modify index f) :
    other = f slot ∨ other ∈ slots ∧ other.itemId ≠ slot.itemId := by
  obtain ⟨i, hi⟩ := List.mem_iff_getElem?.mp hother
  rw [List.getElem?_modify, Option.map_eq_map] at hi
  obtain ⟨old, hold, rfl⟩ := Option.map_eq_some_iff.mp hi
  by_cases heq : index = i
  · rw [if_pos heq]
    rw [← heq, hslot] at hold
    exact .inl (congrArg f (Option.some.inj hold).symm)
  · rw [if_neg heq]
    refine .inr ⟨List.mem_of_getElem? hold, fun hid => heq ?_⟩
    have hlt : index < (slots.map Slot.itemId).length := by
      rw [List.length_map]
      exact (List.getElem?_eq_some_iff.mp hslot).1
    refine (List.getElem?_inj hlt hnodup).mp ?_
    rw [List.getElem?_map, List.getElem?_map, hslot, hold, Option.map_some, Option.map_some, hid]

omit [Field α] [LinearOrder α] in
theorem map_modify_dead {β : Type} (index : Nat) (f : Slot α → β)
    (hf : ∀ slot, f { slot with alive := false } = f slot) :
    (slots.modify index fun slot => { slot with alive := false }).map f = slots.map f := by
  refine List.ext_getElem? fun i => ?_
  rw [List.getElem?_map, List.getElem?_map, List.getElem?_modify, Option.map_eq_map, Option.map_map]
  congr 1
  funext slot
  rw [Function.comp_apply]
  split
  · exact hf slot
  · rfl

/-- The pick of a round. -/
theorem Tracks.pick {index : Nat} (h : Tracks ids unit relevance threshold slots selected)
    (hnodup : ids.Nodup) (hslot : slots[index]? = some slot) :
    Tracks ids unit relevance threshold
      ((slots.modify index fun slot => { slot with alive := false }).map fun other =>
        other.raise (similarity other.unit slot.unit)) (selected ++ [slot.itemId]) := by
  have hmem := List.mem_of_getElem? hslot
  have hnodup' : (slots.map Slot.itemId).Nodup := h.ids ▸ hnodup
  have hcases : ∀ raised ∈ (slots.modify index fun slot => { slot with alive := false }).map
      fun other => other.raise (similarity other.unit slot.unit), ∃ other,
        raised = other.raise (similarity other.unit slot.unit) ∧
          (other = { slot with alive := false } ∨ other ∈ slots ∧ other.itemId ≠ slot.itemId) := by
    intro raised hraised
    obtain ⟨other, hother, rfl⟩ := List.mem_map.mp hraised
    exact ⟨other, rfl, mem_modify hnodup' hslot hother⟩
  refine ⟨?_, ?_, ?_, ?_, ?_⟩
  · have hid : (Slot.itemId ∘ fun other => other.raise (similarity other.unit slot.unit)) = Slot.itemId :=
      funext fun other => raise_itemId _
    rw [List.map_map, hid, map_modify_dead index Slot.itemId fun _ => rfl, h.ids]
  · intro raised hraised
    obtain ⟨other, rfl, rfl | ⟨hother, -⟩⟩ := hcases raised hraised
    · rw [raise_relevance, raise_itemId]
      exact h.relevances slot hmem
    · rw [raise_relevance, raise_itemId, h.relevances other hother]
  · intro raised hraised
    obtain ⟨other, rfl, rfl | ⟨hother, -⟩⟩ := hcases raised hraised
    · rw [raise_unit, raise_itemId]
      exact h.units slot hmem
    · rw [raise_unit, raise_itemId, h.units other hother]
  · intro raised hraised halive
    obtain ⟨other, rfl, rfl | ⟨hother, hne⟩⟩ := hcases raised hraised
    · rw [raise_alive] at halive
      cases halive
    · rw [raise_alive] at halive
      obtain ⟨hnew, hsim⟩ := h.alive other hother halive
      rw [raise_itemId, raise_maxSim halive, plainMaxSim_concat, hsim, h.units other hother,
        h.units slot hmem]
      refine ⟨fun hin => ?_, rfl⟩
      rcases List.mem_append.mp hin with hin | hin
      · exact hnew hin
      · exact hne (List.mem_singleton.mp hin)
  · intro raised hraised hdead
    obtain ⟨other, rfl, rfl | ⟨hother, hne⟩⟩ := hcases raised hraised
    · rw [raise_itemId]
      exact .inl (List.mem_append_right _ (List.mem_singleton_self _))
    · rw [raise_alive] at hdead
      rw [raise_itemId]
      exact (h.dead other hother hdead).imp (List.mem_append_left _) tooSimilar_concat

variable {units : List (Option (List α))} {numpy : Bool}

/-- The scan of the arrays is that of the ids. -/
theorem scan_slots (h : Tracks ids unit relevance threshold state.slots state.selected) :
    scan (openScore unit relevance lam threshold state.selected) lowest ids =
      ((scan (slotScore lam) lowest (rejectSimilar threshold state).zipIdx).1.map (·.1.itemId),
        (scan (slotScore lam) lowest (rejectSimilar threshold state).zipIdx).2) := by
  have hids : ids = (rejectSimilar threshold state).zipIdx.map (·.1.itemId) := by
    calc ids = (rejectSimilar threshold state).map Slot.itemId := h.reject.ids.symm
      _ = ((rejectSimilar threshold state).zipIdx.map Prod.fst).map Slot.itemId := by
        rw [List.zipIdx_map_fst]
      _ = (rejectSimilar threshold state).zipIdx.map (·.1.itemId) := List.map_map ..
  have hscore : scan (slotScore lam) lowest (rejectSimilar threshold state).zipIdx =
      scan (fun entry => openScore unit relevance lam threshold state.selected entry.1.itemId) lowest
        (rejectSimilar threshold state).zipIdx := by
    refine scan_congr fun entry hentry => ?_
    exact slotScore_reject h (List.fst_mem_of_mem_zipIdx hentry) entry.2
  rw [hscore, ← scan_map]
  exact congrArg _ hids

theorem mmrRound_of_none {mmr : α}
    (h : Tracks ids unit relevance threshold state.slots state.selected)
    (hscan : scan (openScore unit relevance lam threshold state.selected) lowest ids = (none, mmr)) :
    mmrRound lam threshold (matrixOf numpy units) state = none := by
  rw [scan_slots h] at hscan
  have hnone := Option.map_eq_none_iff.mp (congrArg Prod.fst hscan)
  unfold mmrRound
  dsimp only
  split
  · rename_i heq
    rw [heq] at hnone
    cases hnone
  · rfl

/-- A round picks what the scan of the ids finds. -/
theorem mmrRound_of_pick {cid : String} {mmr : α}
    (h : Tracks ids unit relevance threshold state.slots state.selected)
    (hnodup : ids.Nodup) (hunits : state.slots.map Slot.unit = units)
    (hscan : scan (openScore unit relevance lam threshold state.selected) lowest ids =
      (some cid, mmr)) :
    ∃ next, mmrRound lam threshold (matrixOf numpy units) state = some next ∧
      next.selected = state.selected ++ [cid] ∧
      next.picks = Assoc.set cid
        ⟨cid, mmr, relevance cid, plainMaxSim unit state.selected cid⟩ state.picks ∧
      Tracks ids unit relevance threshold next.slots next.selected ∧
      next.slots.map Slot.unit = units := by
  rw [scan_slots h] at hscan
  obtain ⟨⟨best, mmr'⟩, hbest⟩ : ∃ found,
    scan (slotScore lam) lowest (rejectSimilar threshold state).zipIdx = found := ⟨_, rfl⟩
  rw [hbest] at hscan
  obtain ⟨hfst, rfl⟩ := Prod.mk.inj hscan
  obtain ⟨⟨slot, index⟩, rfl, rfl⟩ := Option.map_eq_some_iff.mp hfst
  obtain ⟨hmem, hscore⟩ := scan_eq_some (congrArg Prod.fst hbest)
  have hslot : (rejectSimilar threshold state)[index]? = some slot :=
    List.mem_zipIdx_iff_getElem?.mp hmem
  have hmem := List.mem_of_getElem? hslot
  have hreject := h.reject
  have halive : slot.alive = true := by
    unfold slotScore at hscore
    split at hscore
    · assumption
    · cases hscore
  obtain ⟨-, hsim⟩ := hreject.alive slot hmem halive
  have hunits' : ((rejectSimilar threshold state).modify index fun slot =>
      { slot with alive := false }).map Slot.unit = units := by
    rw [map_modify_dead index Slot.unit fun _ => rfl, map_rejectSimilar _ fun _ _ => rfl, hunits]
  have hpicked : ((rejectSimilar threshold state).modify index fun slot =>
      { slot with alive := false })[index]? = some { slot with alive := false } := by
    rw [List.getElem?_modify_eq, hslot]
    rfl
  have hbase : ∀ other ∈ (rejectSimilar threshold state).modify index fun slot =>
      { slot with alive := false }, other.alive = true → 0 ≤ other.maxSim := by
    intro other hother hother'
    rcases mem_modify (hreject.ids ▸ hnodup) hslot hother with rfl | ⟨hother, -⟩
    · cases hother'
    · rw [(hreject.alive other hother hother').2]
      exact zero_le_plainMaxSim
  have hrefresh := refreshMaxSim_eq numpy hunits' hpicked hbase
  refine ⟨⟨_, _, Assoc.set slot.itemId ⟨slot.itemId, mmr', slot.relevance, slot.maxSim⟩ state.picks⟩,
    ?_, rfl, ?_, hreject.pick hnodup hslot, ?_⟩
  · unfold mmrRound
    dsimp only
    rw [hbest]
    dsimp only
    rw [hrefresh]
  · rw [← hreject.relevances slot hmem, ← hsim]
  · rw [List.map_map, ← hunits']
    exact List.map_congr_left fun other _ => raise_unit _

theorem filter_remaining (candidates selected : List String) (cid : String) :
    ((candidates.filter fun cid => decide (cid ∉ selected)).filter fun other => decide (other ≠ cid)) =
      candidates.filter fun other => decide (other ∉ selected ++ [cid]) := by
  rw [List.filter_filter]
  refine List.filter_congr fun other _ => ?_
  by_cases heq : other = cid <;> by_cases hold : other ∈ selected <;> simp [heq, hold]

theorem filter_remaining_nil (candidates : List String) :
    (candidates.filter fun cid => decide (cid ∉ ([] : List String))) = candidates :=
  List.filter_eq_self.mpr fun _ _ => decide_eq_true List.not_mem_nil

/-- Round by round both select the same. -/
theorem mmrRounds_eq {candidates : List String} (hids : candidates.eraseDups = ids)
    (hnodup : ids.Nodup) (rounds : Nat)
    (h : Tracks ids unit relevance threshold state.slots state.selected)
    (hunits : state.slots.map Slot.unit = units) :
    ((mmrRounds lam threshold (matrixOf numpy units) rounds state).selected,
        (mmrRounds lam threshold (matrixOf numpy units) rounds state).picks) =
      plainRounds unit relevance lam threshold rounds
        (candidates.filter fun cid => decide (cid ∉ state.selected)) (state.selected, state.picks) := by
  induction rounds generalizing state with
  | zero => rfl
  | succ rounds ih =>
    rw [mmrRounds, plainRounds, scan_remaining, hids]
    obtain ⟨⟨best, mmr⟩, hscan⟩ : ∃ found,
      scan (openScore unit relevance lam threshold state.selected) lowest ids = found := ⟨_, rfl⟩
    rw [hscan]
    cases best with
    | none => rw [mmrRound_of_none h hscan]
    | some cid =>
      obtain ⟨next, hround, hselected, hpicks, htracks, hunits'⟩ :=
        mmrRound_of_pick h hnodup hunits hscan
      rw [hround]
      dsimp only
      rw [filter_remaining, ← hselected, ← hpicks]
      exact ih htracks hunits'

end

/-! ## What is selected -/

section

variable {α : Type} [Field α] [LinearOrder α]
variable {unit : String → Option (List α)} {relevance : String → α} {lam : α} {threshold : Option α}
  {found : List String × MmrPicks α} {candidates : List String}

/-- Every later one is less similar to every earlier one than the threshold. -/
def Apart (unit : String → Option (List α)) (threshold : Option α) (selected : List String) : Prop :=
  selected.Pairwise fun earlier later =>
    ∀ t, threshold = some t → similarity (unit later) (unit earlier) < t

/-- What holds of the selected at any time. -/
structure Sound (unit : String → Option (List α)) (threshold : Option α)
    (candidates selected : List String) : Prop where
  mem : ∀ cid ∈ selected, cid ∈ candidates
  nodup : selected.Nodup
  apart : Apart unit threshold selected

theorem Sound.pick {selected : List String} {cid : String} {mmr : α}
    (h : Sound unit threshold candidates selected)
    (hscan : scan (openScore unit relevance lam threshold selected) lowest candidates.eraseDups =
      (some cid, mmr)) : Sound unit threshold candidates (selected ++ [cid]) := by
  obtain ⟨hmem, hscore⟩ := scan_eq_some (congrArg Prod.fst hscan)
  obtain ⟨hnew, hsim, -⟩ := openScore_eq_some hscore
  refine ⟨?_, ?_, ?_⟩
  · intro other hother
    rcases List.mem_append.mp hother with hother | hother
    · exact h.mem other hother
    · rw [List.mem_singleton.mp hother]
      exact List.mem_eraseDups.mp hmem
  · refine List.nodup_append.mpr ⟨h.nodup, List.nodup_singleton cid, ?_⟩
    rintro other hother _ hcid rfl
    exact hnew (List.mem_singleton.mp hcid ▸ hother)
  · refine List.pairwise_append.mpr ⟨h.apart, List.pairwise_singleton _ _, ?_⟩
    intro earlier hearlier later hlater t ht
    obtain rfl := List.mem_singleton.mp hlater
    refine (similarity_le_plainMaxSim hearlier).trans_lt (not_le.mp fun hle => ?_)
    have htoo : tooSimilar threshold selected (plainMaxSim unit selected later) = true :=
      tooSimilar_iff.mpr ⟨List.ne_nil_of_mem hearlier, t, ht, hle⟩
    exact Bool.false_ne_true (hsim.symm.trans htoo)

theorem plainRounds_sound (rounds : Nat) (h : Sound unit threshold candidates found.1) :
    Sound unit threshold candidates (plainRounds unit relevance lam threshold rounds
        (candidates.filter fun cid => decide (cid ∉ found.1)) found).1 ∧
      (plainRounds unit relevance lam threshold rounds
        (candidates.filter fun cid => decide (cid ∉ found.1)) found).1.length ≤
        found.1.length + rounds := by
  induction rounds generalizing found with
  | zero => exact ⟨h, le_rfl⟩
  | succ rounds ih =>
    obtain ⟨selected, picks⟩ := found
    rw [plainRounds, scan_remaining]
    obtain ⟨⟨best, mmr⟩, hscan⟩ : ∃ result, scan (openScore unit relevance lam threshold selected)
      lowest candidates.eraseDups = result := ⟨_, rfl⟩
    rw [hscan]
    cases best with
    | none => exact ⟨h, Nat.le_add_right ..⟩
    | some cid =>
      dsimp only
      rw [filter_remaining]
      have hpicked : Sound unit threshold candidates
          (selected ++ [cid], Assoc.set cid
            ⟨cid, mmr, relevance cid, plainMaxSim unit selected cid⟩ picks).1 := h.pick hscan
      obtain ⟨hsound, hlength⟩ := ih hpicked
      refine ⟨hsound, hlength.trans ?_⟩
      rw [List.length_append, List.length_singleton]
      omega

/-- After as many rounds as there are candidates nothing remains. -/
theorem plainRounds_saturated {remaining : List String} {rounds : Nat}
    (h : remaining.toFinset.card ≤ rounds) (extra : Nat) :
    plainRounds unit relevance lam threshold (rounds + extra) remaining found =
      plainRounds unit relevance lam threshold rounds remaining found := by
  induction rounds generalizing remaining found with
  | zero =>
    have hnil : remaining = [] := by
      rw [← List.toFinset_eq_empty_iff, ← Finset.card_eq_zero]
      exact Nat.le_zero.mp h
    cases extra with
    | zero => rfl
    | succ extra =>
      rw [hnil]
      rfl
  | succ rounds ih =>
    rw [Nat.succ_add, plainRounds, plainRounds]
    obtain ⟨⟨best, mmr⟩, hscan⟩ : ∃ result,
      scan (plainScore unit relevance lam threshold found.1) lowest remaining = result := ⟨_, rfl⟩
    rw [hscan]
    cases best with
    | none => rfl
    | some cid =>
      obtain ⟨hmem, -⟩ := scan_eq_some (congrArg Prod.fst hscan)
      refine ih ?_
      have hlt : (remaining.filter fun other => decide (other ≠ cid)).toFinset.card <
          remaining.toFinset.card := by
        refine Finset.card_lt_card (Finset.ssubset_iff_subset_ne.mpr ⟨?_, ?_⟩)
        · intro other hother
          rw [List.mem_toFinset] at hother ⊢
          exact List.mem_of_mem_filter hother
        · intro heq
          have hcid : cid ∈ (remaining.filter fun other => decide (other ≠ cid)).toFinset := by
            rw [heq]
            exact List.mem_toFinset.mpr hmem
          have hne := (List.mem_filter.mp (List.mem_toFinset.mp hcid)).2
          exact of_decide_eq_true hne rfl
      omega

end

/-! ## The candidates that fill up -/

section

variable {topK : Nat} {remaining selected : List String}

theorem fillStep_cases (topK : Nat) (selected : List String) (cid : String) :
    (fillStep topK selected cid = selected ∧ (topK ≤ selected.length ∨ cid ∈ selected)) ∨
      fillStep topK selected cid = selected ++ [cid] ∧ selected.length < topK ∧ cid ∉ selected := by
  unfold fillStep
  split
  · rename_i hfull
    exact .inl ⟨rfl, .inl hfull⟩
  · rename_i hroom
    split
    · rename_i hold
      exact .inl ⟨rfl, .inr hold⟩
    · rename_i hnew
      exact .inr ⟨rfl, Nat.not_le.mp hroom, hnew⟩

/-- The list grows up to its limit, or until all are in it. -/
structure Fills (topK : Nat) (remaining selected filled : List String) : Prop where
  grows : selected <+: filled
  nodup : filled.Nodup
  le : filled.length ≤ topK
  mem : ∀ cid ∈ filled, cid ∈ selected ∨ cid ∈ remaining
  full : topK ≤ filled.length ∨ ∀ cid ∈ remaining, cid ∈ filled

theorem fillRemaining_fills (hnodup : selected.Nodup) (hle : selected.length ≤ topK) :
    Fills topK remaining selected (fillRemaining topK remaining selected) := by
  induction remaining using List.reverseRecOn with
  | nil => exact ⟨List.prefix_rfl, hnodup, hle, fun _ => .inl, .inr nofun⟩
  | append_singleton earlier last ih =>
    have hfold : fillRemaining topK (earlier ++ [last]) selected =
        fillStep topK (fillRemaining topK earlier selected) last := by
      rw [fillRemaining, List.foldl_append]
      rfl
    rw [hfold]
    have hmem : ∀ cid ∈ fillRemaining topK earlier selected,
        cid ∈ selected ∨ cid ∈ earlier ++ [last] := fun cid hcid =>
      (ih.mem cid hcid).imp_right (List.mem_append_left _)
    rcases fillStep_cases topK (fillRemaining topK earlier selected) last with
      ⟨heq, hkeep⟩ | ⟨heq, hroom, hnew⟩
    · rw [heq]
      refine ⟨ih.grows, ih.nodup, ih.le, hmem, ?_⟩
      rcases hkeep with hfull | hold
      · exact .inl hfull
      · refine ih.full.imp_right fun hall cid hcid => ?_
        rcases List.mem_append.mp hcid with hcid | hcid
        · exact hall cid hcid
        · rwa [List.mem_singleton.mp hcid]
    · rw [heq]
      refine ⟨ih.grows.trans (List.prefix_append _ _), ?_, ?_, ?_, .inr ?_⟩
      · refine List.nodup_append.mpr ⟨ih.nodup, List.nodup_singleton last, ?_⟩
        rintro cid hcid _ hlast rfl
        exact hnew (List.mem_singleton.mp hlast ▸ hcid)
      · rw [List.length_append, List.length_singleton]
        exact hroom
      · intro cid hcid
        rcases List.mem_append.mp hcid with hcid | hcid
        · exact hmem cid hcid
        · exact .inr (List.mem_append_right _ hcid)
      · intro cid hcid
        rcases List.mem_append.mp hcid with hcid | hcid
        · exact List.mem_append_left _
            (ih.full.resolve_left (Nat.not_le.mpr hroom) cid hcid)
        · exact List.mem_append_right _ hcid

theorem fillRemaining_of_full (h : topK ≤ selected.length) (remaining : List String) :
    fillRemaining topK remaining selected = selected := by
  induction remaining with
  | nil => rfl
  | cons cid later ih =>
    have hstep : fillStep topK selected cid = selected := if_pos h
    rw [fillRemaining, List.foldl_cons, hstep]
    exact ih

theorem Fills.length {filled : List String} (h : Fills topK remaining selected filled)
    (hremaining : remaining.Nodup) (hsub : ∀ cid ∈ selected, cid ∈ remaining) :
    filled.length = min topK remaining.length := by
  have hall : filled ⊆ remaining := fun cid hcid => (h.mem cid hcid).elim (hsub cid) id
  have hmost := (List.subperm_of_subset h.nodup hall).length_le
  have hle := h.le
  rcases h.full with hfull | hevery
  · omega
  · have hleast := (List.subperm_of_subset hremaining hevery).length_le
    omega

end

/-! ## The law -/

section

variable {α : Type} [Field α] [LinearOrder α]

/-- Both fill policies against the plain algorithm. -/
structure MmrLaw (select : Option String → Except MmrError (List String × MmrPicks α))
    (plain : List String × MmrPicks α) (unit : String → Option (List α)) (threshold : Option α)
    (topK : Int) (candidates : List String) : Prop where
  strict : ∀ policy, parseFillPolicy policy = .ok .strict → select policy = .ok plain
  apart : Apart unit threshold plain.1
  fill : ∀ policy, parseFillPolicy policy = .ok .fill → ∃ selected,
    select policy = .ok (selected, plain.2) ∧ plain.1 <+: selected ∧
      selected.length = min topK.toNat (named candidates).toFinset.card

variable {numpy : Bool} {sqrt : α → α} {candidates : List String} {relevance : String → Option α}
  {vectors : String → Option (List α)} {topK : Int} {lambdaMult : α} {threshold : Option α}

theorem plainMmr_of_early (h : candidates = [] ∨ topK ≤ 0) :
    plainMmr sqrt candidates relevance vectors topK lambdaMult threshold = ([], []) := by
  unfold plainMmr
  rcases h with rfl | hnone
  · cases topK.toNat <;> rfl
  · rw [Int.toNat_of_nonpos hnone]
    rfl

theorem fillRemaining_early (h : candidates = [] ∨ topK ≤ 0) :
    fillRemaining topK.toNat (distinctCandidates candidates) [] = [] := by
  rcases h with rfl | hnone
  · rfl
  · exact fillRemaining_of_full (Nat.le_of_eq (Int.toNat_of_nonpos hnone)) _

theorem card_named (candidates : List String) :
    (named candidates).toFinset.card = (distinctCandidates candidates).length := by
  rw [distinctCandidates, ← List.toFinset_card_of_nodup (nodup_eraseDups (named candidates))]
  congr 1
  ext cid
  rw [List.mem_toFinset, List.mem_toFinset]
  exact List.mem_eraseDups.symm

/-- The rounds are those of the plain algorithm. -/
theorem mmrRounds_eq_plainMmr (slots : List (Slot α))
    (hslots : slots = (distinctCandidates candidates).map fun cid =>
      { itemId := cid, relevance := (relevance cid).getD 0
        unit := mmrUnitVector sqrt (vectors cid), alive := true, maxSim := 0 : Slot α }) :
    ((mmrRounds (clamped lambdaMult) threshold (matrixOf numpy (slots.map Slot.unit))
        (min topK.toNat (distinctCandidates candidates).length) ⟨slots, [], []⟩).selected,
      (mmrRounds (clamped lambdaMult) threshold (matrixOf numpy (slots.map Slot.unit))
        (min topK.toNat (distinctCandidates candidates).length) ⟨slots, [], []⟩).picks) =
      plainMmr sqrt candidates relevance vectors topK lambdaMult threshold := by
  have htracks : Tracks (distinctCandidates candidates) (fun cid => mmrUnitVector sqrt (vectors cid))
      (fun cid => (relevance cid).getD 0) threshold slots [] := by
    subst hslots
    refine ⟨?_, ?_, ?_, ?_, ?_⟩
    · rw [List.map_map]
      exact List.map_id _
    all_goals
      intro slot hslot
      obtain ⟨cid, -, rfl⟩ := List.mem_map.mp hslot
    · rfl
    · rfl
    · exact fun _ => ⟨List.not_mem_nil, rfl⟩
    · exact nofun
  have hrounds : ∀ rounds,
      ((mmrRounds (clamped lambdaMult) threshold (matrixOf numpy (slots.map Slot.unit)) rounds
          ⟨slots, [], []⟩).selected,
        (mmrRounds (clamped lambdaMult) threshold (matrixOf numpy (slots.map Slot.unit)) rounds
          ⟨slots, [], []⟩).picks) =
        plainRounds (fun cid => mmrUnitVector sqrt (vectors cid)) (fun cid => (relevance cid).getD 0)
          (clamped lambdaMult) threshold rounds
          ((named candidates).filter fun cid => decide (cid ∉ ([] : List String))) ([], []) :=
    fun rounds => mmrRounds_eq rfl (nodup_eraseDups _) rounds htracks rfl
  rw [hrounds, filter_remaining_nil, plainMmr]
  rcases Nat.le_total topK.toNat (distinctCandidates candidates).length with hle | hle
  · rw [Nat.min_eq_left hle]
  · obtain ⟨extra, heq⟩ := Nat.exists_eq_add_of_le hle
    rw [Nat.min_eq_right hle, heq]
    refine (plainRounds_saturated ?_ extra).symm
    rw [card_named]

theorem plainMmr_sound :
    Sound (fun cid => mmrUnitVector sqrt (vectors cid)) threshold (named candidates)
        (plainMmr sqrt candidates relevance vectors topK lambdaMult threshold).1 ∧
      (plainMmr sqrt candidates relevance vectors topK lambdaMult threshold).1.length ≤ topK.toNat := by
  have hstart : Sound (fun cid => mmrUnitVector sqrt (vectors cid)) threshold (named candidates)
      (([], []) : List String × MmrPicks α).1 :=
    ⟨nofun, List.nodup_nil, List.Pairwise.nil⟩
  have hsound := @plainRounds_sound α _ _ _ (fun cid => (relevance cid).getD 0)
    (clamped lambdaMult) _ _ _ topK.toNat hstart
  rw [filter_remaining_nil, List.length_nil, Nat.zero_add] at hsound
  exact hsound

/-- What is selected is what the plain algorithm selects, filled up under `fill`. -/
theorem mmrSelect_eq {policy : Option String} {parsed : FillPolicy}
    (h : parseFillPolicy policy = .ok parsed) {plain : List String × MmrPicks α}
    (hplain : plainMmr sqrt candidates relevance vectors topK lambdaMult threshold = plain) :
    mmrSelect numpy sqrt candidates relevance vectors topK lambdaMult threshold policy =
      .ok (if parsed = .fill then
        fillRemaining topK.toNat (distinctCandidates candidates) plain.1 else plain.1, plain.2) := by
  by_cases hearly : candidates = [] ∨ topK ≤ 0
  · rw [plainMmr_of_early hearly] at hplain
    rw [mmrSelect, if_pos hearly, ← hplain, fillRemaining_early hearly, ite_self]
  · rw [mmrSelect, if_neg hearly, h]
    by_cases hnone : distinctCandidates candidates = []
    · have hnamed : named candidates = [] := by
        refine List.eq_nil_iff_forall_not_mem.mpr fun cid hcid => ?_
        have hmem : cid ∈ distinctCandidates candidates := List.mem_eraseDups.mpr hcid
        rw [hnone] at hmem
        cases hmem
      have hplain' : plain = ([], []) := by
        rw [← hplain, plainMmr, hnamed]
        cases topK.toNat <;> rfl
      rw [hnone, hplain']
      cases parsed <;> rfl
    · have hrounds := @mmrRounds_eq_plainMmr α _ _ numpy sqrt candidates relevance vectors topK
        lambdaMult threshold _ rfl
      rw [hplain] at hrounds
      subst hrounds
      refine (if_neg hnone).trans ?_
      cases parsed with
      | strict => rfl
      | fill =>
        dsimp only
        split
        · rfl
        · rename_i hfull
          have hle := Nat.not_lt.mp fun hlt => hfull ⟨rfl, hlt⟩
          rw [if_pos rfl, fillRemaining_of_full hle]

/-- The incremental selection is the plain one. -/
theorem mmrSelect_law (numpy : Bool) (sqrt : α → α) (candidates : List String)
    (relevance : String → Option α) (vectors : String → Option (List α)) (topK : Int)
    (lambdaMult : α) (threshold : Option α) :
    MmrLaw (mmrSelect numpy sqrt candidates relevance vectors topK lambdaMult threshold)
      (plainMmr sqrt candidates relevance vectors topK lambdaMult threshold)
      (fun cid => mmrUnitVector sqrt (vectors cid)) threshold topK candidates := by
  obtain ⟨hsound, hle⟩ := @plainMmr_sound α _ _ sqrt candidates relevance vectors topK lambdaMult
    threshold
  obtain ⟨plain, hplain⟩ : ∃ plain,
    plainMmr sqrt candidates relevance vectors topK lambdaMult threshold = plain := ⟨_, rfl⟩
  rw [hplain] at hsound hle ⊢
  refine ⟨fun policy hpolicy => mmrSelect_eq hpolicy hplain, hsound.apart, fun policy hpolicy => ?_⟩
  have hfills : Fills topK.toNat (distinctCandidates candidates) plain.1
      (fillRemaining topK.toNat (distinctCandidates candidates) plain.1) :=
    fillRemaining_fills hsound.nodup hle
  refine ⟨_, mmrSelect_eq hpolicy hplain, hfills.grows, ?_⟩
  rw [card_named]
  exact hfills.length (nodup_eraseDups _) fun cid hcid => List.mem_eraseDups.mpr (hsound.mem cid hcid)

end

end AiPlatform.Knowledge
