/-
  AiPlatform.Lib.Reading

  Texts read as words between blanks, over any characters and any test for a blank.

  `Reads blank text pieces` says that the text is the pieces one after the other, with
  nothing but blanks around them; pieces without a blank between them make up one word.
  `Passes blank pieces covered texts last` says that the texts go through the pieces in
  order: each reads a stretch of them that begins no later than where the one before ended.
-/

import Mathlib.Data.List.Basic
import Mathlib.Tactic.Common

namespace Reading

variable {α : Type} (blank : α → Bool)

/-- The words of a text of which the first has begun. -/
def wordsAfter (begun : List α) : List α → List (List α)
  | [] => if begun.isEmpty then [] else [begun]
  | c :: rest =>
    if blank c then
      if begun.isEmpty then wordsAfter [] rest else begun :: wordsAfter [] rest
    else wordsAfter (begun ++ [c]) rest

def words (text : List α) : List (List α) := wordsAfter blank [] text

def IsGap (text : List α) : Prop := ∀ c ∈ text, blank c = true

def IsWord (text : List α) : Prop := text ≠ [] ∧ ∀ c ∈ text, blank c = false

/-- The text is the pieces, with gaps before, between and after them. -/
def Reads : List α → List (List α) → Prop
  | text, [] => IsGap blank text
  | text, piece :: later => ∃ gap rest, IsGap blank gap ∧ text = gap ++ (piece ++ rest) ∧ Reads rest later

/-- The texts read stretches of the pieces that leave none out, from those covered on up
    to the last. -/
inductive Passes (pieces : List (List α)) : Nat → List (List α) → Nat → Prop
  | nil (covered : Nat) : Passes pieces covered [] covered
  | cons {covered start stop last : Nat} {text : List α} {later : List (List α)}
      (hstart : start ≤ covered) (hsome : start < stop) (hstop : stop ≤ pieces.length)
      (hreads : Reads blank text ((pieces.take stop).drop start))
      (hlater : Passes pieces stop later last) : Passes pieces covered (text :: later) last

variable {blank} {text other gap word : List α} {pieces more : List (List α)}

/-! ## Gaps -/

theorem IsGap.nil : IsGap blank [] := nofun

theorem IsGap.append (h : IsGap blank text) (hother : IsGap blank other) : IsGap blank (text ++ other) := by
  intro c hc
  exact (List.mem_append.mp hc).elim (h c) (hother c)

theorem reads_nil : Reads blank ([] : List α) [] := IsGap.nil

/-- A gap in front changes nothing. -/
theorem reads_gap_append (hgap : IsGap blank gap) (h : Reads blank text pieces) :
    Reads blank (gap ++ text) pieces := by
  cases pieces with
  | nil => exact hgap.append h
  | cons piece later =>
    obtain ⟨first, rest, hfirst, rfl, hrest⟩ := h
    exact ⟨gap ++ first, rest, hgap.append hfirst, (List.append_assoc ..).symm, hrest⟩

theorem Reads.append (h : Reads blank text pieces) (hother : Reads blank other more) :
    Reads blank (text ++ other) (pieces ++ more) := by
  induction pieces generalizing text with
  | nil => exact reads_gap_append h hother
  | cons piece later ih =>
    obtain ⟨first, rest, hfirst, rfl, hrest⟩ := h
    refine ⟨first, rest ++ other, hfirst, ?_, ih hrest⟩
    rw [List.append_assoc, List.append_assoc]

theorem Reads.of_word (word : List α) : Reads blank word [word] :=
  ⟨[], [], IsGap.nil, (List.append_nil word).symm, IsGap.nil⟩

theorem Reads.append_gap (h : Reads blank text pieces) (hgap : IsGap blank gap) :
    Reads blank (text ++ gap) pieces := by
  have hnone : Reads blank gap [] := hgap
  have hboth := h.append hnone
  rwa [List.append_nil] at hboth

/-- Pieces one right after the other. -/
theorem reads_flatten (pieces : List (List α)) : Reads blank pieces.flatten pieces := by
  induction pieces with
  | nil => exact reads_nil
  | cons piece later ih => exact (Reads.of_word piece).append ih

/-- A text that begins with a gap reads the same without it. -/
theorem Reads.of_gap_append (hpieces : ∀ piece ∈ pieces, IsWord blank piece)
    (hgap : IsGap blank gap) (h : Reads blank (gap ++ text) pieces) : Reads blank text pieces := by
  induction gap with
  | nil => exact h
  | cons c gap ih =>
    refine ih (fun d hd => hgap d (List.mem_cons_of_mem c hd)) ?_
    cases pieces with
    | nil => exact fun d hd => h d (List.mem_cons_of_mem c hd)
    | cons piece later =>
      obtain ⟨first, rest, hfirst, heq, hrest⟩ := h
      cases first with
      | nil =>
        -- the piece would begin with a blank
        obtain ⟨hne, hword⟩ := hpieces piece List.mem_cons_self
        cases piece with
        | nil => exact absurd rfl hne
        | cons d piece =>
          obtain rfl := (List.cons.inj heq).1
          have hc := hgap c List.mem_cons_self
          rw [hword c List.mem_cons_self] at hc
          cases hc
      | cons d first =>
        exact ⟨first, rest, fun e he => hfirst e (List.mem_cons_of_mem d he), (List.cons.inj heq).2,
          hrest⟩

theorem Reads.of_append_gap (hpieces : ∀ piece ∈ pieces, IsWord blank piece)
    (hgap : IsGap blank gap) (h : Reads blank (text ++ gap) pieces) : Reads blank text pieces := by
  induction pieces generalizing text with
  | nil => exact fun c hc => h c (List.mem_append_left gap hc)
  | cons piece later ih =>
    obtain ⟨first, rest, hfirst, heq, hrest⟩ := h
    obtain ⟨⟨hne, hword⟩, hlater⟩ := List.forall_mem_cons.mp hpieces
    rw [← List.append_assoc] at heq
    rcases List.append_eq_append_iff.mp heq with ⟨middle, hfront, hback⟩ | ⟨middle, hfront, hback⟩
    · rcases List.eq_nil_or_concat' middle with rfl | ⟨inner, c, rfl⟩
      · rw [List.append_nil] at hfront
        rw [List.nil_append] at hback
        refine ⟨first, [], hfirst, ?_, ih hlater ?_⟩
        · rw [List.append_nil, hfront]
        · rwa [List.nil_append, hback]
      · -- the piece would end with a blank
        obtain ⟨init, d, rfl⟩ := (List.eq_nil_or_concat' piece).resolve_left hne
        rw [← List.append_assoc, ← List.append_assoc] at hfront
        obtain rfl := List.singleton_inj.mp (List.append_inj' hfront rfl).2
        have hblank : d ∈ gap := by
          rw [hback]
          exact List.mem_append_left _ (List.mem_append_right _ List.mem_cons_self)
        have hword := hword d (List.mem_append_right _ List.mem_cons_self)
        rw [hgap d hblank] at hword
        cases hword
    · refine ⟨first, middle, hfirst, ?_, ih hlater (hback ▸ hrest)⟩
      rw [hfront, List.append_assoc]

/-! ## Words -/

/-- The words are what is begun and what comes after it. -/
theorem reads_wordsAfter (begun text : List α) :
    Reads blank (begun ++ text) (wordsAfter blank begun text) := by
  induction text generalizing begun with
  | nil =>
    rw [wordsAfter, List.append_nil]
    cases begun with
    | nil => exact reads_nil
    | cons c begun => exact Reads.of_word _
  | cons c rest ih =>
    rw [wordsAfter]
    by_cases hc : blank c = true
    · rw [if_pos hc]
      have hgap : IsGap blank [c] := fun d hd => List.mem_singleton.mp hd ▸ hc
      have hrest := reads_gap_append hgap (ih [])
      cases begun with
      | nil => exact hrest
      | cons d begun => exact (Reads.of_word _).append hrest
    · rw [if_neg hc]
      have hrest := ih (begun ++ [c])
      rwa [List.append_assoc] at hrest

theorem reads_words (text : List α) : Reads blank text (words blank text) := reads_wordsAfter [] text

theorem isWord_of_mem_wordsAfter {begun text : List α} (hbegun : ∀ c ∈ begun, blank c = false) :
    ∀ word ∈ wordsAfter blank begun text, IsWord blank word := by
  induction text generalizing begun with
  | nil =>
    rw [wordsAfter]
    cases begun with
    | nil =>
      intro word hword
      cases hword
    | cons c begun =>
      intro word hword
      rw [List.mem_singleton.mp hword]
      exact ⟨List.cons_ne_nil c begun, hbegun⟩
  | cons c rest ih =>
    rw [wordsAfter]
    by_cases hc : blank c = true
    · rw [if_pos hc]
      cases begun with
      | nil => exact ih nofun
      | cons d begun =>
        intro word hword
        rcases List.mem_cons.mp hword with rfl | hword
        · exact ⟨List.cons_ne_nil d begun, hbegun⟩
        · have hnone : ∀ c ∈ ([] : List α), blank c = false := nofun
          exact ih hnone word hword
    · rw [if_neg hc]
      refine ih fun d hd => ?_
      rcases List.mem_append.mp hd with hd | hd
      · exact hbegun d hd
      · rw [List.mem_singleton.mp hd]
        exact Bool.not_eq_true _ ▸ hc

theorem isWord_of_mem_words : ∀ word ∈ words blank text, IsWord blank word :=
  isWord_of_mem_wordsAfter nofun

theorem wordsAfter_word (hword : ∀ c ∈ word, blank c = false) (begun rest : List α) :
    wordsAfter blank begun (word ++ rest) = wordsAfter blank (begun ++ word) rest := by
  induction word generalizing begun with
  | nil => rw [List.nil_append, List.append_nil]
  | cons c word ih =>
    obtain ⟨hc, hlater⟩ := List.forall_mem_cons.mp hword
    rw [List.cons_append, wordsAfter, if_neg (Bool.eq_false_iff.mp hc), ih hlater, List.append_assoc]
    rfl

theorem wordsAfter_gap (hgap : IsGap blank gap) (rest : List α) :
    wordsAfter blank [] (gap ++ rest) = wordsAfter blank [] rest := by
  induction gap with
  | nil => rfl
  | cons c gap ih =>
    rw [List.cons_append, wordsAfter, if_pos (hgap c List.mem_cons_self), List.isEmpty_nil, if_pos rfl]
    exact ih fun d hd => hgap d (List.mem_cons_of_mem c hd)

/-- A word that a gap follows has come to its end. -/
theorem wordsAfter_end (hne : word ≠ []) (hgap : IsGap blank gap) (hsome : gap ≠ []) (rest : List α) :
    wordsAfter blank word (gap ++ rest) = word :: wordsAfter blank [] rest := by
  cases gap with
  | nil => exact absurd rfl hsome
  | cons c gap =>
    have hempty : word.isEmpty = false := by simpa using hne
    rw [List.cons_append, wordsAfter, if_pos (hgap c List.mem_cons_self), hempty,
      if_neg Bool.false_ne_true, wordsAfter_gap fun d hd => hgap d (List.mem_cons_of_mem c hd)]

/-- The words of a text are the pieces that it reads, some of them grown together. -/
theorem Reads.grouped {group : List (List α)} (hgroup : ∀ piece ∈ group, IsWord blank piece)
    (hpieces : ∀ piece ∈ pieces, IsWord blank piece) (h : Reads blank text pieces) :
    ∃ groups : List (List (List α)), (∀ g ∈ groups, g ≠ []) ∧ groups.flatten = group ++ pieces ∧
      wordsAfter blank group.flatten text = groups.map List.flatten := by
  have hbare : ∀ {group : List (List α)}, (∀ piece ∈ group, IsWord blank piece) →
      group ≠ [] → group.flatten ≠ [] ∧ ∀ c ∈ group.flatten, blank c = false := by
    intro group hgroup hne
    constructor
    · intro hnil
      obtain ⟨piece, hpiece⟩ := List.exists_mem_of_ne_nil group hne
      exact (hgroup piece hpiece).1 (List.flatten_eq_nil_iff.mp hnil piece hpiece)
    · intro c hc
      obtain ⟨piece, hpiece, hc⟩ := List.mem_flatten.mp hc
      exact (hgroup piece hpiece).2 c hc
  induction pieces generalizing text group with
  | nil =>
    by_cases hne : group = []
    · subst hne
      refine ⟨[], nofun, rfl, ?_⟩
      have hgap := wordsAfter_gap h []
      rwa [List.append_nil] at hgap
    · refine ⟨[group], ?_, ?_, ?_⟩
      · intro g hg
        rwa [List.mem_singleton.mp hg]
      · rw [List.flatten_cons, List.flatten_nil]
      · obtain ⟨hsome, -⟩ := hbare hgroup hne
        by_cases htext : text = []
        · rw [htext, wordsAfter]
          have hempty : group.flatten.isEmpty = false := by simpa using hsome
          rw [hempty]
          rfl
        · have hend := wordsAfter_end hsome h htext []
          rwa [List.append_nil] at hend
  | cons piece later ih =>
    obtain ⟨gap, rest, hgap, rfl, hrest⟩ := h
    obtain ⟨hpiece, hlater⟩ := List.forall_mem_cons.mp hpieces
    by_cases hjoined : gap = []
    · subst hjoined
      -- the piece goes on with the word that has begun
      have hmore : ∀ other ∈ group ++ [piece], IsWord blank other := by
        intro other hother
        rcases List.mem_append.mp hother with hother | hother
        · exact hgroup other hother
        · rwa [List.mem_singleton.mp hother]
      obtain ⟨groups, hne, hflatten, hwords⟩ := ih hmore hlater hrest
      refine ⟨groups, hne, ?_, ?_⟩
      · rw [hflatten, List.append_assoc]
        rfl
      · rw [List.nil_append, wordsAfter_word hpiece.2, ← hwords, List.flatten_append,
          List.flatten_singleton]
    · have hone : ∀ other ∈ [piece], IsWord blank other := by
        intro other hother
        rwa [List.mem_singleton.mp hother]
      obtain ⟨groups, hne, hflatten, hwords⟩ := ih hone hlater hrest
      rw [List.flatten_singleton] at hwords
      have hafter : wordsAfter blank [] (piece ++ rest) = groups.map List.flatten := by
        rw [wordsAfter_word hpiece.2, List.nil_append, hwords]
      by_cases hnone : group = []
      · subst hnone
        refine ⟨groups, hne, hflatten, ?_⟩
        rw [List.flatten_nil, wordsAfter_gap hgap, hafter]
      · obtain ⟨hsome, -⟩ := hbare hgroup hnone
        refine ⟨group :: groups, ?_, ?_, ?_⟩
        · exact List.forall_mem_cons.mpr ⟨hnone, hne⟩
        · rw [List.flatten_cons, hflatten]
          rfl
        · rw [wordsAfter_end hsome hgap hjoined, hafter, List.map_cons]

theorem Reads.words_grouped (hpieces : ∀ piece ∈ pieces, IsWord blank piece)
    (h : Reads blank text pieces) : ∃ groups : List (List (List α)), (∀ g ∈ groups, g ≠ []) ∧
      groups.flatten = pieces ∧ words blank text = groups.map List.flatten := by
  have hnone : ∀ piece ∈ ([] : List (List α)), IsWord blank piece := nofun
  exact h.grouped hnone hpieces

/-- Words joined by a gap. -/
theorem reads_intercalate (hgap : IsGap blank gap) {texts : List (List α)}
    {parts : List (List (List α))} (h : List.Forall₂ (Reads blank) texts parts) :
    Reads blank (gap.intercalate texts) parts.flatten := by
  induction h with
  | nil => exact reads_nil
  | @cons text part texts parts hreads hlater ih =>
    cases hlater with
    | nil =>
      rw [List.intercalate_singleton, List.flatten_singleton]
      exact hreads
    | cons hsecond hmore =>
      rw [List.intercalate_cons_cons, List.flatten_cons, List.append_assoc]
      exact hreads.append (reads_gap_append hgap ih)

theorem reads_intercalate_words (hgap : IsGap blank gap) (words : List (List α)) :
    Reads blank (gap.intercalate words) words := by
  induction words with
  | nil => exact reads_nil
  | cons word later ih =>
    cases later with
    | nil =>
      rw [List.intercalate_singleton]
      exact Reads.of_word word
    | cons next later =>
      rw [List.intercalate_cons_cons, List.append_assoc]
      exact (Reads.of_word word).append (reads_gap_append hgap ih)

/-! ## Texts that go through the pieces -/

variable {covered middle last start stop : Nat} {texts later : List (List α)}

theorem Passes.append (h : Passes blank pieces covered texts middle)
    (hlater : Passes blank pieces middle later last) :
    Passes blank pieces covered (texts ++ later) last := by
  induction h with
  | nil => exact hlater
  | cons hstart hsome hstop hreads _ ih => exact .cons hstart hsome hstop hreads (ih hlater)

/-- The first text may begin before what is covered. -/
theorem Passes.of_le (h : Passes blank pieces start texts last) (hne : texts ≠ [])
    (hle : start ≤ covered) : Passes blank pieces covered texts last := by
  cases h with
  | nil => exact absurd rfl hne
  | cons hstart hsome hstop hreads hlater =>
    exact .cons (Nat.le_trans hstart hle) hsome hstop hreads hlater

theorem Passes.concat (h : Passes blank pieces covered texts middle) (hstart : start ≤ middle)
    (hsome : start < stop) (hstop : stop ≤ pieces.length)
    (hreads : Reads blank text ((pieces.take stop).drop start)) :
    Passes blank pieces covered (texts ++ [text]) stop :=
  h.append (.cons hstart hsome hstop hreads (.nil stop))

/-- Texts that read one part after the other. -/
theorem passes_parts {parts : List (List (List α))} (hreads : List.Forall₂ (Reads blank) texts parts)
    (hne : ∀ part ∈ parts, part ≠ []) (before after : List (List α)) :
    Passes blank (before ++ (parts.flatten ++ after)) before.length texts
      (before.length + parts.flatten.length) := by
  induction hreads generalizing before with
  | nil =>
    rw [List.flatten_nil, List.length_nil, Nat.add_zero]
    exact .nil _
  | @cons text part texts parts htext _ ih =>
    obtain ⟨hpart, hlater⟩ := List.forall_mem_cons.mp hne
    have hrest := ih hlater (before ++ part)
    have hpieces : before ++ part ++ (parts.flatten ++ after) =
        before ++ ((part ++ parts.flatten) ++ after) := by
      rw [List.append_assoc, List.append_assoc]
    have hwindow : ((before ++ ((part ++ parts.flatten) ++ after)).take
        (before.length + part.length)).drop before.length = part := by
      rw [← hpieces, ← List.length_append, List.take_left, List.drop_left]
    rw [hpieces, List.length_append, Nat.add_assoc] at hrest
    rw [List.flatten_cons, List.length_append]
    refine .cons (Nat.le_refl _) (Nat.lt_add_of_pos_right (List.length_pos_iff.mpr hpart)) ?_ ?_ hrest
    · rw [← hpieces, List.length_append, List.length_append]
      exact Nat.le_add_right ..
    · rwa [hwindow]

end Reading
