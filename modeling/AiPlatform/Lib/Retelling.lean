/-
  AiPlatform.Lib.Retelling

  A text that is heard in pieces, and then once more as a whole.

  Who passes it on passes on every piece, and the whole only where nothing has been
  heard yet.  That tells the text exactly once as long as what was heard is not
  forgotten before the whole comes, and no piece comes after it; the law says so for
  every log (`toldOnce_iff`).
-/

import Mathlib.Tactic.Common

namespace Retelling

/-- What is heard: of the text, that all of it can be forgotten, or nothing of either. -/
inductive Heard (τ : Type) where
  | piece (text : τ)
  | whole (text : τ)
  | reset
  | other
  deriving DecidableEq, Repr

namespace Heard

variable {τ : Type}

def piece? : Heard τ → Option τ
  | .piece text => some text
  | _ => none

def whole? : Heard τ → Option τ
  | .whole text => some text
  | _ => none

/-- It is of the text. -/
def isText : Heard τ → Bool
  | .piece _ => true
  | .whole _ => true
  | _ => false

/-- Whether something of the text has been heard, with what was known before. -/
def noted (known : Bool) : Heard τ → Bool
  | .piece _ => true
  | .whole _ => true
  | .reset => false
  | .other => known

/-- What is passed on. -/
def told (known : Bool) : Heard τ → List τ
  | .piece text => [text]
  | .whole text => if known then [] else [text]
  | _ => []

end Heard

variable {τ : Type} {log front rest : List (Heard τ)} {known : Bool} {text : τ}

def pieces (log : List (Heard τ)) : List τ := log.filterMap Heard.piece?

def wholes (log : List (Heard τ)) : List τ := log.filterMap Heard.whole?

/-- Whether something is known of the text after the log. -/
def knownAfter (known : Bool) (log : List (Heard τ)) : Bool := log.foldl Heard.noted known

/-- All that is passed on along the log. -/
def retold : Bool → List (Heard τ) → List τ
  | _, [] => []
  | known, entry :: rest => entry.told known ++ retold (entry.noted known) rest

/-- The text was told once: as its pieces if there are any, or else as a whole. -/
def ToldOnce (log : List (Heard τ)) (told : List τ) : Prop :=
  wholes log ≠ [] →
    if pieces log = [] then ∃ text ∈ wholes log, told = [text] else told = pieces log

/-- A whole that finds nothing known is the first that is heard of the text, and no piece
    comes after it. -/
def Orderly (log : List (Heard τ)) : Prop :=
  ∀ front text rest, log = front ++ .whole text :: rest → knownAfter false front = false →
    (∀ entry ∈ front, entry.isText = false) ∧ pieces rest = []

/-! ## Cutting a log -/

theorem pieces_append : pieces (front ++ rest) = pieces front ++ pieces rest :=
  List.filterMap_append

theorem wholes_append : wholes (front ++ rest) = wholes front ++ wholes rest :=
  List.filterMap_append

theorem knownAfter_append :
    knownAfter known (front ++ rest) = knownAfter (knownAfter known front) rest :=
  List.foldl_append

theorem retold_append :
    retold known (front ++ rest) = retold known front ++ retold (knownAfter known front) rest := by
  induction front generalizing known with
  | nil => rfl
  | cons entry front ih =>
    simp only [List.cons_append, retold, ih, List.append_assoc]
    rfl

/-- A log that holds a whole, cut at the first one. -/
theorem exists_first_whole (h : wholes log ≠ []) :
    ∃ front text rest, log = front ++ .whole text :: rest ∧ wholes front = [] := by
  induction log with
  | nil => exact absurd rfl h
  | cons entry log ih =>
    cases entry with
    | whole text => exact ⟨[], text, log, rfl, rfl⟩
    | piece text =>
      obtain ⟨front, whole, rest, rfl, hfront⟩ := ih h
      exact ⟨.piece text :: front, whole, rest, rfl, hfront⟩
    | reset =>
      obtain ⟨front, whole, rest, rfl, hfront⟩ := ih h
      exact ⟨.reset :: front, whole, rest, rfl, hfront⟩
    | other =>
      obtain ⟨front, whole, rest, rfl, hfront⟩ := ih h
      exact ⟨.other :: front, whole, rest, rfl, hfront⟩

theorem not_isText_iff : (∀ entry ∈ log, entry.isText = false) ↔
    pieces log = [] ∧ wholes log = [] := by
  simp only [pieces, wholes, List.filterMap_eq_nil_iff, ← forall_and]
  refine forall_congr' fun entry => ?_
  cases entry <;> simp [Heard.isText, Heard.piece?, Heard.whole?]

theorem knownAfter_of_not_isText (h : ∀ entry ∈ log, entry.isText = false) :
    knownAfter false log = false := by
  induction log with
  | nil => rfl
  | cons entry log ih =>
    obtain ⟨hentry, hlog⟩ := List.forall_mem_cons.mp h
    cases entry with
    | piece text => cases hentry
    | whole text => cases hentry
    | reset => exact ih hlog
    | other => exact ih hlog

/-! ## What is passed on -/

/-- Every piece is passed on. -/
theorem length_pieces_le : (pieces log).length ≤ (retold known log).length := by
  induction log generalizing known with
  | nil => exact Nat.le_refl 0
  | cons entry log ih =>
    have hrest : (pieces log).length ≤ (retold (entry.noted known) log).length := ih
    simp only [retold, List.length_append]
    cases entry with
    | piece text =>
      simp only [pieces, List.filterMap_cons, Heard.piece?, Heard.told, List.length_cons,
        List.length_nil] at hrest ⊢
      omega
    | whole text => exact Nat.le_trans hrest (Nat.le_add_left _ _)
    | reset => exact Nat.le_trans hrest (Nat.le_add_left _ _)
    | other => exact Nat.le_trans hrest (Nat.le_add_left _ _)

/-- Nothing is passed on only where nothing is heard. -/
theorem not_isText_of_retold (h : retold false log = []) : ∀ entry ∈ log, entry.isText = false := by
  induction log with
  | nil => exact fun entry hentry => absurd hentry List.not_mem_nil
  | cons entry log ih =>
    obtain ⟨htold, hrest⟩ := List.append_eq_nil_iff.mp h
    cases entry with
    | piece text => cases htold
    | whole text => cases htold
    | reset => exact List.forall_mem_cons.mpr ⟨rfl, ih hrest⟩
    | other => exact List.forall_mem_cons.mpr ⟨rfl, ih hrest⟩

/-- Where every whole finds something known, the pieces alone are passed on. -/
theorem retold_eq_pieces
    (h : ∀ front text rest, log = front ++ .whole text :: rest → knownAfter known front = true) :
    retold known log = pieces log := by
  induction log generalizing known with
  | nil => rfl
  | cons entry log ih =>
    have hrest : retold (entry.noted known) log = pieces log := by
      refine ih fun front text rest heq => ?_
      exact h (entry :: front) text rest (by rw [heq, List.cons_append])
    rw [retold, hrest]
    cases entry with
    | piece text => rfl
    | reset => rfl
    | other => rfl
    | whole text =>
      obtain rfl : known = true := h [] text log rfl
      rfl

/-! ## The law -/

theorem Orderly.toldOnce (h : Orderly log) : ToldOnce log (retold false log) := by
  intro hwholes
  split
  next hpieces =>
    -- The first whole finds nothing known; any other one would come after it.
    obtain ⟨front, text, rest, rfl, hfront⟩ := exists_first_whole hwholes
    rw [pieces_append] at hpieces
    obtain ⟨hpieces, hrest⟩ := List.append_eq_nil_iff.mp hpieces
    have hnone := not_isText_iff.mpr ⟨hpieces, hfront⟩
    have hunknown := knownAfter_of_not_isText hnone
    have hfrontTold : retold false front = [] := by
      rw [retold_eq_pieces fun front' text' rest' heq => ?_, hpieces]
      rw [heq, wholes_append] at hfront
      cases (List.append_eq_nil_iff.mp hfront).2
    have hrestTold : retold true rest = [] := by
      rw [retold_eq_pieces fun front' text' rest' heq => ?_]
      · exact hrest
      · by_contra hlost
        have hlater := h (front ++ .whole text :: front') text' rest'
          (by rw [heq, List.append_assoc, List.cons_append])
          (by rw [knownAfter_append, hunknown]; exact eq_false_of_ne_true hlost)
        exact absurd (hlater.1 (.whole text) (by simp)) (by simp [Heard.isText])
    refine ⟨text, ?_, ?_⟩
    · rw [wholes_append]
      exact List.mem_append_right _ List.mem_cons_self
    · rw [retold_append, hfrontTold, hunknown]
      simp only [retold, Heard.told, Heard.noted, hrestTold]
      rfl
  next hpieces =>
    refine retold_eq_pieces fun front text rest heq => ?_
    by_contra hunknown
    obtain ⟨hfront, hrest⟩ := h front text rest heq (eq_false_of_ne_true hunknown)
    refine hpieces ?_
    rw [heq, pieces_append, (not_isText_iff.mp hfront).1]
    exact hrest

theorem ToldOnce.orderly (h : ToldOnce log (retold false log)) : Orderly log := by
  rintro front text rest rfl hunknown
  have htold : retold false (front ++ .whole text :: rest) =
      retold false front ++ text :: retold true rest := by
    rw [retold_append, hunknown]
    rfl
  have hpieces : pieces (front ++ .whole text :: rest) = pieces front ++ pieces rest :=
    pieces_append
  have hwholes : wholes (front ++ .whole text :: rest) ≠ [] := by
    rw [wholes_append]
    exact List.append_ne_nil_of_right_ne_nil _ (List.cons_ne_nil _ _)
  have honce := h hwholes
  rw [htold, hpieces] at honce
  split at honce
  next hnone =>
    obtain ⟨only, -, honly⟩ := honce
    have hlength := congrArg List.length honly
    simp only [List.length_append, List.length_cons, List.length_nil] at hlength
    have hfront : retold false front = [] := List.eq_nil_of_length_eq_zero (by omega)
    exact ⟨not_isText_of_retold hfront, (List.append_eq_nil_iff.mp hnone).2⟩
  next =>
    -- The whole comes on top of the pieces.
    have hlength := congrArg List.length honce
    have hleft : (pieces front).length ≤ (retold false front).length := length_pieces_le
    have hright : (pieces rest).length ≤ (retold true rest).length := length_pieces_le
    simp only [List.length_append, List.length_cons] at hlength
    omega

/-- What is passed on tells the text once exactly along the logs that are in order. -/
theorem toldOnce_iff : ToldOnce log (retold false log) ↔ Orderly log :=
  ⟨ToldOnce.orderly, Orderly.toldOnce⟩

end Retelling
