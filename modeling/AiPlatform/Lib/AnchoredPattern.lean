/-
  AiPlatform.Lib.AnchoredPattern

  Patterns that are one row: atoms, each of them repeated, and between them the marks
  of where a text begins and where it ends.  An atom is anything that a test can hold
  against a letter.

  `Walk` reads a row along a text, from one position to another.  Two things are said
  of it: how short a text a row can be found in (`Walk.shortest_le`, `exists_walk`),
  and that whatever a row is found in can be cut down to that length
  (`Found.shorten`).
-/

import AiPlatform.Lib.Spans
import Mathlib.Algebra.GroupWithZero.Nat

namespace AnchoredPattern

open Spans

variable {A B α : Type} {test : A → α → Bool} {text : List α} {i j k : Nat}

/-- A piece of a row. -/
inductive Term (A : Type) where
  /-- the text begins here -/
  | start
  /-- the text ends here -/
  | finish
  | repeated (atom : A) (minimum : Nat) (maximum : Option Nat)
  deriving DecidableEq, Repr

namespace Term

def atom? : Term A → Option A
  | .repeated atom _ _ => some atom
  | _ => none

/-- How many letters it takes at least. -/
def minimum : Term A → Nat
  | .repeated _ minimum _ => minimum
  | _ => 0

def map (f : A → B) : Term A → Term B
  | .start => .start
  | .finish => .finish
  | .repeated atom minimum maximum => .repeated (f atom) minimum maximum

@[simp] theorem minimum_map (f : A → B) (term : Term A) :
    (term.map f).minimum = term.minimum := by
  cases term <;> rfl

end Term

/-! ## Repetition -/

/-- So many words of the language, one after the other. -/
def repetition (L : Language α) (minimum : Nat) (maximum : Option Nat) : Language α :=
  {word | ∃ count, minimum ≤ count ∧ (∀ bound ∈ maximum, count ≤ bound) ∧ word ∈ L ^ count}

theorem span_repetition {L : Language α} {minimum : Nat} {maximum : Option Nat} :
    Span (repetition L minimum maximum) text i j ↔
      ∃ count, minimum ≤ count ∧ (∀ bound ∈ maximum, count ≤ bound) ∧
        Span (L ^ count) text i j := by
  constructor
  · rintro ⟨before, part, after, htext, ⟨count, hmin, hmax, hpart⟩, hi, hj⟩
    exact ⟨count, hmin, hmax, before, part, after, htext, hpart, hi, hj⟩
  · rintro ⟨count, hmin, hmax, before, part, after, htext, hpart, hi, hj⟩
    exact ⟨before, part, after, htext, ⟨count, hmin, hmax, hpart⟩, hi, hj⟩

theorem letters_congr {test test' : α → Bool} (h : ∀ c, test c = test' c) :
    letters test = letters test' := by
  rw [funext h]

/-- A row of letters that all pass stands wherever it is written. -/
theorem span_letters_pow {test : α → Bool} {word : List α} (hword : ∀ c ∈ word, test c = true)
    (before after : List α) :
    Span (letters test ^ word.length) (before ++ word ++ after) before.length
      (before.length + word.length) := by
  refine ⟨before, word, after, rfl, ?_, rfl, rfl⟩
  induction word with
  | nil => exact Language.nil_mem_one
  | cons c rest ih =>
    rw [List.length_cons, pow_succ']
    have hrest : rest ∈ letters test ^ rest.length :=
      ih fun d hd => hword d (List.mem_cons_of_mem c hd)
    exact Language.append_mem_mul (a := [c]) ⟨c, hword c List.mem_cons_self, rfl⟩ hrest

/-- The letters a span of a power stands on, and that they pass. -/
theorem Span.exists_letters {test : α → Bool} {n : Nat} (h : Span (letters test ^ n) text i j) :
    ∃ word : List α, word.length = n ∧ ∀ c ∈ word, test c = true := by
  induction n generalizing j with
  | zero => exact ⟨[], rfl, fun c hc => absurd hc List.not_mem_nil⟩
  | succ n ih =>
    obtain ⟨m, hfirst, hlast⟩ := span_pow_succ.mp h
    obtain ⟨word, hlength, hword⟩ := ih hfirst
    obtain ⟨-, c, -, hc⟩ := span_letters.mp hlast
    refine ⟨c :: word, by rw [List.length_cons, hlength], ?_⟩
    intro d hd
    rcases List.mem_cons.mp hd with rfl | hd
    · exact hc
    · exact hword d hd

/-! ## Reading a row along a text -/

/-- The row leads from the one position to the other. -/
def Walk (test : A → α → Bool) (text : List α) : List (Term A) → Nat → Nat → Prop
  | [], i, j => i = j ∧ j ≤ text.length
  | .start :: rest, i, j => i = 0 ∧ Walk test text rest i j
  | .finish :: rest, i, j => i = text.length ∧ Walk test text rest i j
  | .repeated atom minimum maximum :: rest, i, j =>
      ∃ k, Span (repetition (letters (test atom)) minimum maximum) text i k ∧
        Walk test text rest k j

/-- The row is found somewhere in the text. -/
def Found (test : A → α → Bool) (terms : List (Term A)) (text : List α) : Prop :=
  ∃ i j, Walk test text terms i j

variable {terms rest : List (Term A)}

theorem Walk.le (h : Walk test text terms i j) : i ≤ j ∧ j ≤ text.length := by
  induction terms generalizing i with
  | nil => exact ⟨h.1.le, h.2⟩
  | cons term rest ih =>
    cases term with
    | start => exact ih h.2
    | finish => exact ih h.2
    | repeated atom minimum maximum =>
      obtain ⟨k, hspan, hrest⟩ := h
      exact ⟨hspan.le.1.trans (ih hrest).1, (ih hrest).2⟩

theorem walk_append {front : List (Term A)} : Walk test text (front ++ rest) i k ↔
    ∃ j, Walk test text front i j ∧ Walk test text rest j k := by
  induction front generalizing i with
  | nil =>
    constructor
    · intro h
      exact ⟨i, ⟨rfl, h.le.1.trans h.le.2⟩, h⟩
    · rintro ⟨j, ⟨rfl, -⟩, h⟩
      exact h
  | cons term front ih =>
    cases term with
    | start =>
      simp only [List.cons_append, Walk, ih]
      exact ⟨fun ⟨h, j, hj⟩ => ⟨j, ⟨h, hj.1⟩, hj.2⟩, fun ⟨j, hj, hr⟩ => ⟨hj.1, j, hj.2, hr⟩⟩
    | finish =>
      simp only [List.cons_append, Walk, ih]
      exact ⟨fun ⟨h, j, hj⟩ => ⟨j, ⟨h, hj.1⟩, hj.2⟩, fun ⟨j, hj, hr⟩ => ⟨hj.1, j, hj.2, hr⟩⟩
    | repeated atom minimum maximum =>
      simp only [List.cons_append, Walk, ih]
      constructor
      · rintro ⟨m, hspan, j, hfront, hrest⟩
        exact ⟨j, ⟨m, hspan, hfront⟩, hrest⟩
      · rintro ⟨j, ⟨m, hspan, hfront⟩, hrest⟩
        exact ⟨m, hspan, j, hfront, hrest⟩

/-- A row between marks, of which each may be there or not. -/
theorem found_between {opens closes : Bool} : Found test
      ((if opens then [.start] else []) ++ terms ++ (if closes then [.finish] else [])) text ↔
    ∃ i j, Walk test text terms i j ∧ (opens = true → i = 0) ∧
      (closes = true → j = text.length) := by
  have hopen : ∀ i j, Walk test text (if opens then [.start] else []) i j ↔
      i = j ∧ j ≤ text.length ∧ (opens = true → i = 0) := by
    intro i j
    cases opens with
    | false => simp [Walk]
    | true => simp only [if_true, Walk, forall_const]; tauto
  have hclose : ∀ i j, Walk test text (if closes then [.finish] else []) i j ↔
      i = j ∧ j ≤ text.length ∧ (closes = true → i = text.length) := by
    intro i j
    cases closes with
    | false => simp [Walk]
    | true => simp only [if_true, Walk, forall_const]; tauto
  unfold Found
  constructor
  · rintro ⟨i, j, h⟩
    obtain ⟨m, h, hlast⟩ := walk_append.mp h
    obtain ⟨n, hfirst, hwalk⟩ := walk_append.mp h
    obtain ⟨rfl, -, hstart⟩ := (hopen i n).mp hfirst
    obtain ⟨rfl, -, hfinish⟩ := (hclose m j).mp hlast
    exact ⟨i, m, hwalk, hstart, hfinish⟩
  · rintro ⟨i, j, hwalk, hstart, hfinish⟩
    refine ⟨i, j, walk_append.mpr ⟨j, walk_append.mpr ⟨i, ?_, hwalk⟩, ?_⟩⟩
    · exact (hopen i i).mpr ⟨rfl, hwalk.le.1.trans hwalk.le.2, hstart⟩
    · exact (hclose j j).mpr ⟨rfl, hwalk.le.2, hfinish⟩

/-- A row whose atoms pass the same letters under other names reads the same. -/
theorem walk_map {test' : B → α → Bool} (f : A → B)
    (h : ∀ term ∈ terms, ∀ atom ∈ term.atom?, ∀ c, test' (f atom) c = test atom c) :
    Walk test' text (terms.map (Term.map f)) i j ↔ Walk test text terms i j := by
  induction terms generalizing i with
  | nil => exact Iff.rfl
  | cons term rest ih =>
    have hrest : ∀ {i}, Walk test' text (rest.map (Term.map f)) i j ↔ Walk test text rest i j :=
      ih fun other hother => h other (List.mem_cons_of_mem term hother)
    cases term with
    | start => simp only [List.map_cons, Term.map, Walk, hrest]
    | finish => simp only [List.map_cons, Term.map, Walk, hrest]
    | repeated atom minimum maximum =>
      have hatom : letters (test' (f atom)) = letters (test atom) :=
        letters_congr (h _ List.mem_cons_self atom rfl)
      simp only [List.map_cons, Term.map, Walk, hrest, hatom]

/-- The words a row of atoms reads; marks read none. -/
def language (test : A → α → Bool) : List (Term A) → Language α
  | [] => 1
  | .repeated atom minimum maximum :: rest =>
      repetition (letters (test atom)) minimum maximum * language test rest
  | _ :: rest => language test rest

/-- A row without marks leads along the words of its language. -/
theorem walk_iff_span (h : ∀ term ∈ terms, term.atom?.isNone = false) :
    Walk test text terms i j ↔ Span (language test terms) text i j := by
  induction terms generalizing i with
  | nil => exact span_one.symm
  | cons term rest ih =>
    have hrest : ∀ {i}, Walk test text rest i j ↔ Span (language test rest) text i j :=
      ih fun other hother => h other (List.mem_cons_of_mem term hother)
    cases term with
    | start => exact absurd (h _ List.mem_cons_self) (by simp [Term.atom?])
    | finish => exact absurd (h _ List.mem_cons_self) (by simp [Term.atom?])
    | repeated atom minimum maximum => simp only [Walk, language, span_mul, hrest]

/-! ## The shortest texts -/

/-- How many letters a row takes at least. -/
def shortest (terms : List (Term A)) : Nat := (terms.map Term.minimum).sum

@[simp] theorem shortest_nil : shortest ([] : List (Term A)) = 0 := rfl

@[simp] theorem shortest_cons (term : Term A) :
    shortest (term :: rest) = term.minimum + shortest rest := by
  simp only [shortest, List.map_cons, List.sum_cons]

@[simp] theorem shortest_append (front : List (Term A)) :
    shortest (front ++ rest) = shortest front + shortest rest := by
  simp only [shortest, List.map_append, List.sum_append]

theorem Walk.shortest_le (h : Walk test text terms i j) : i + shortest terms ≤ j := by
  induction terms generalizing i with
  | nil => exact h.1.le
  | cons term rest ih =>
    rw [shortest_cons]
    cases term with
    | start =>
      have := ih h.2
      simp only [Term.minimum]
      omega
    | finish =>
      have := ih h.2
      simp only [Term.minimum]
      omega
    | repeated atom minimum maximum =>
      obtain ⟨k, hspan, hrest⟩ := h
      obtain ⟨count, hmin, -, hcount⟩ := span_repetition.mp hspan
      have hk : k = i + count := hcount.letters_pow
      have := ih hrest
      simp only [Term.minimum]
      omega

/-- Each atom passes some letter, and none is to be repeated less often than at least. -/
def Term.Possible (test : A → α → Bool) : Term A → Prop
  | .repeated atom minimum maximum =>
      (∃ c, test atom c = true) ∧ ∀ bound ∈ maximum, minimum ≤ bound
  | _ => False

/-- A row of atoms alone is found in a text of no more letters than it takes. -/
theorem exists_walk (h : ∀ term ∈ terms, term.Possible test) (before : List α) :
    ∃ word : List α, word.length = shortest terms ∧ ∀ after,
      Walk test (before ++ word ++ after) terms before.length (before.length + word.length) := by
  induction terms generalizing before with
  | nil =>
    refine ⟨[], rfl, fun after => ⟨rfl, ?_⟩⟩
    simp only [List.length_append]
    omega
  | cons term rest ih =>
    cases term with
    | start => exact absurd (h _ List.mem_cons_self) id
    | finish => exact absurd (h _ List.mem_cons_self) id
    | repeated atom minimum maximum =>
      obtain ⟨⟨c, hc⟩, hbound⟩ := h _ List.mem_cons_self
      obtain ⟨word, hlength, hwalk⟩ := ih (fun other hother => h other (List.mem_cons_of_mem _ hother))
        (before ++ List.replicate minimum c)
      have hpass : ∀ d ∈ List.replicate minimum c, test atom d = true := by
        intro d hd
        rw [List.eq_of_mem_replicate hd]
        exact hc
      refine ⟨List.replicate minimum c ++ word, ?_, fun after => ?_⟩
      · simp only [List.length_append, List.length_replicate, shortest_cons, Term.minimum, hlength]
      · have hspan := span_letters_pow hpass before (word ++ after)
        have hrest := hwalk after
        rw [List.length_replicate] at hspan
        simp only [List.length_append, List.length_replicate] at hrest
        simp only [List.append_assoc] at hspan hrest
        simp only [List.length_append, List.length_replicate, List.append_assoc, Walk]
        refine ⟨before.length + minimum, ?_, ?_⟩
        · exact span_repetition.mpr ⟨minimum, le_rfl, hbound, hspan⟩
        · rw [← Nat.add_assoc]
          exact hrest

/-- What a row reads can be cut down: each atom is repeated as often as it must be, and no
    mark of the row is lost, as what stood at an end of the text still does. -/
theorem Walk.shorten (h : Walk test text terms i j) (before : List α)
    (hstart : i = 0 → before = []) :
    ∃ word : List α, word.length ≤ shortest terms ∧ word.length ≤ j - i ∧
      Walk test (before ++ word) terms before.length (before.length + word.length) := by
  induction terms generalizing i before with
  | nil =>
    refine ⟨[], le_rfl, Nat.zero_le _, rfl, ?_⟩
    simp only [List.length_append]
    omega
  | cons term rest ih =>
    cases term with
    | start =>
      obtain ⟨rfl, hrest⟩ := h
      obtain ⟨word, hshort, hword, hwalk⟩ := ih hrest before hstart
      refine ⟨word, ?_, hword, ?_, hwalk⟩
      · simpa only [shortest_cons, Term.minimum, Nat.zero_add] using hshort
      · rw [hstart rfl, List.length_nil]
    | finish =>
      obtain ⟨rfl, hrest⟩ := h
      obtain ⟨word, -, hword, hwalk⟩ := ih hrest before hstart
      have hj : j - text.length = 0 := Nat.sub_eq_zero_of_le hrest.le.2
      obtain rfl : word = [] := List.eq_nil_of_length_eq_zero (by omega)
      refine ⟨[], Nat.zero_le _, Nat.zero_le _, ?_, hwalk⟩
      rw [List.append_nil]
    | repeated atom minimum maximum =>
      obtain ⟨k, hspan, hrest⟩ := h
      obtain ⟨count, hmin, hmax, hcount⟩ := span_repetition.mp hspan
      obtain ⟨full, hfull, hpass⟩ := Span.exists_letters hcount
      have hk : k = i + count := hcount.letters_pow
      have hpart : (full.take minimum).length = minimum := by
        rw [List.length_take, hfull]
        exact Nat.min_eq_left hmin
      have hstart' : k = 0 → before ++ full.take minimum = [] := by
        intro hzero
        rw [hstart (by omega), List.nil_append]
        exact List.eq_nil_of_length_eq_zero (by omega)
      obtain ⟨word, hshort, hword, hwalk⟩ := ih hrest (before ++ full.take minimum) hstart'
      have hle : i ≤ k ∧ k ≤ j := ⟨hspan.le.1, hrest.le.1⟩
      refine ⟨full.take minimum ++ word, ?_, ?_, ?_⟩
      · rw [List.length_append, hpart, shortest_cons, Term.minimum]
        omega
      · rw [List.length_append, hpart]
        omega
      · have hones : Span (letters (test atom) ^ (full.take minimum).length)
            (before ++ full.take minimum ++ word) before.length
            (before.length + (full.take minimum).length) :=
          span_letters_pow (fun c hc => hpass c (List.mem_of_mem_take hc)) before word
        rw [hpart] at hones
        rw [List.length_append, hpart, List.append_assoc] at hwalk
        rw [List.append_assoc] at hones
        rw [List.length_append, hpart]
        refine ⟨before.length + minimum, ?_, ?_⟩
        · refine span_repetition.mpr ⟨minimum, le_rfl, ?_, hones⟩
          intro bound hbound
          exact hmin.trans (hmax bound hbound)
        · rw [← Nat.add_assoc]
          exact hwalk

theorem Found.shorten (h : Found test terms text) :
    ∃ word : List α, word.length ≤ shortest terms ∧ Found test terms word := by
  obtain ⟨i, j, hwalk⟩ := h
  obtain ⟨word, hshort, -, hword⟩ := hwalk.shorten [] fun _ => rfl
  exact ⟨word, hshort, _, _, hword⟩

end AnchoredPattern
