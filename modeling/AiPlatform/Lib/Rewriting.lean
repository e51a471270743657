/-
  AiPlatform.Lib.Rewriting

  Texts in which pieces are cut out and marks are put in their place.

  A mark stands between two characters of its own, so that a word without these characters
  is found in the rewritten text only where it was found in the text before. A rewriting pass
  that is such a patching brings back no word that an earlier pass removed.
-/

import Mathlib.Data.List.Infix
import Mathlib.Data.List.DropRight
import Mathlib.Tactic.Common

namespace Rewriting

variable {α : Type}

/-! ## Words found in a text -/

/-- A word without `c` that begins a text ends before the first `c`. -/
theorem prefix_of_prefix_append_cons {c : α} {word before after : List α} (hc : c ∉ word)
    (h : word <+: before ++ c :: after) : word <+: before := by
  induction before generalizing word with
  | nil =>
    cases word with
    | nil => exact List.nil_prefix
    | cons x word =>
      obtain ⟨rfl, -⟩ := List.cons_prefix_cons.mp h
      exact absurd List.mem_cons_self hc
  | cons y before ih =>
    cases word with
    | nil => exact List.nil_prefix
    | cons x word =>
      obtain ⟨rfl, htail⟩ := List.cons_prefix_cons.mp h
      exact List.cons_prefix_cons.mpr ⟨rfl, ih (fun hmem => hc (List.mem_cons_of_mem _ hmem)) htail⟩

/-- A word without `c` lies on one side of `c`. -/
theorem infix_of_infix_append_cons {c : α} {word before after : List α} (hc : c ∉ word)
    (h : word <:+: before ++ c :: after) : word <:+: before ∨ word <:+: after := by
  induction before with
  | nil =>
    rcases List.infix_cons_iff.mp h with hstart | hlater
    · exact .inl (prefix_of_prefix_append_cons hc hstart).isInfix
    · exact .inr hlater
  | cons y before ih =>
    rcases List.infix_cons_iff.mp h with hstart | hlater
    · have hstart : word <+: (y :: before) ++ c :: after := hstart
      exact .inl (prefix_of_prefix_append_cons hc hstart).isInfix
    · exact (ih hlater).imp_left fun hleft => hleft.trans (List.infix_cons List.infix_rfl)

/-- No banned word is found in the text. -/
def Absent (banned : List α → Prop) (text : List α) : Prop := ∀ word, banned word → ¬ word <:+: text

theorem absent_map_iff {β : Type} {f : α → β} {needle : List β} {text : List α} :
    Absent (fun word => word.map f = needle) text ↔ ¬ needle <:+: text.map f := by
  constructor
  · rintro habsent ⟨before, after, hsplit⟩
    obtain ⟨front, back, htext, hfront, -⟩ := List.map_eq_append_iff.mp hsplit.symm
    obtain ⟨left, word, rfl, -, hword⟩ := List.map_eq_append_iff.mp hfront
    exact habsent word hword ⟨left, back, htext.symm⟩
  · rintro hnot word rfl hfound
    exact hnot (hfound.map f)

/-! ## Marks -/

/-- A mark, between the two characters that set it apart. -/
structure Mark (α : Type) where
  opening : α
  body : List α
  closing : α
  deriving DecidableEq

def Mark.text (mark : Mark α) : List α := mark.opening :: mark.body ++ [mark.closing]

/-- What a mark keeps out of the text: a word without the characters at its ends that it does
not hold itself. -/
structure Mark.Foreign (mark : Mark α) (word : List α) : Prop where
  opening : mark.opening ∉ word
  closing : mark.closing ∉ word
  body : ¬ word <:+: mark.body

/-- `new` is `old` with some pieces cut out and the mark put for each. -/
inductive Patched (mark : Mark α) : List α → List α → Prop
  | nil : Patched mark [] []
  | keep (c : α) {old new : List α} : Patched mark old new → Patched mark (c :: old) (c :: new)
  | cut (piece : List α) {old new : List α} :
      Patched mark old new → Patched mark (piece ++ old) (mark.text ++ new)

namespace Patched

variable {mark : Mark α} {old new old' new' word : List α}

theorem refl (text : List α) : Patched mark text text := by
  induction text with
  | nil => exact nil
  | cons c text ih => exact ih.keep c

theorem append (h : Patched mark old new) (h' : Patched mark old' new') :
    Patched mark (old ++ old') (new ++ new') := by
  induction h with
  | nil => exact h'
  | keep c _ ih => exact ih.keep c
  | cut piece _ ih =>
    rw [List.append_assoc, List.append_assoc]
    exact ih.cut piece

theorem cut_all (piece : List α) : Patched mark piece mark.text := by
  have hcut := Patched.cut piece (@nil α mark)
  rwa [List.append_nil, List.append_nil] at hcut

theorem starts_with (h : Patched mark old new) (hopening : mark.opening ∉ word)
    (hword : word <+: new) : word <+: old := by
  induction h generalizing word with
  | nil => exact hword
  | keep c _ ih =>
    cases word with
    | nil => exact List.nil_prefix
    | cons x word =>
      obtain ⟨rfl, htail⟩ := List.cons_prefix_cons.mp hword
      exact List.cons_prefix_cons.mpr ⟨rfl, ih (fun hmem => hopening (List.mem_cons_of_mem _ hmem)) htail⟩
  | cut piece _ ih =>
    have hword : word <+: [] ++ mark.opening :: (mark.body ++ [mark.closing] ++ _) := hword
    rw [List.prefix_nil.mp (prefix_of_prefix_append_cons hopening hword)]
    exact List.nil_prefix

/-- A word that the mark keeps out is found only where the text had it. -/
theorem infix_of_infix (h : Patched mark old new) (hforeign : mark.Foreign word)
    (hword : word <:+: new) : word <:+: old := by
  induction h with
  | nil => exact hword
  | keep c hrest ih =>
    rcases List.infix_cons_iff.mp hword with hstart | hlater
    · exact ((hrest.keep c).starts_with hforeign.opening hstart).isInfix
    · exact List.infix_cons (ih hlater)
  | @cut piece old new _ ih =>
    have hsplit : mark.text ++ new = [] ++ mark.opening :: (mark.body ++ mark.closing :: new) := by
      simp [Mark.text]
    rw [hsplit] at hword
    rcases infix_of_infix_append_cons hforeign.opening hword with hnil | hrest
    · rw [List.infix_nil.mp hnil]
      exact List.nil_infix
    rcases infix_of_infix_append_cons hforeign.closing hrest with hbody | hlater
    · exact absurd hbody hforeign.body
    · exact (ih hlater).trans (List.suffix_append piece old).isInfix

/-- A patching brings no banned word back, as far as its mark keeps the words out. -/
theorem absent {banned : List α → Prop} (h : Patched mark old new)
    (hforeign : ∀ word, banned word → mark.Foreign word) (hold : Absent banned old) : Absent banned new :=
  fun word hword hfound => hold word hword (h.infix_of_infix (hforeign word hword) hfound)

end Patched

/-! ## Finding and replacing a needle -/

section Find

variable [DecidableEq α]

/-- Where the needle is first found. -/
def find (needle : List α) : List α → Option Nat
  | [] => if needle = [] then some 0 else none
  | c :: rest => if needle <+: c :: rest then some 0 else (find needle rest).map (· + 1)

theorem find_eq_none {needle text : List α} : find needle text = none ↔ ¬ needle <:+: text := by
  induction text with
  | nil => simp [find]
  | cons c rest ih =>
    rw [List.infix_cons_iff, find]
    split
    · case isTrue hstart => simp [hstart]
    · case isFalse hstart => simp [hstart, ih]

/-- The needle begins at the place found, and what stands before does not hold it. -/
theorem find_eq_some {needle text : List α} {k : Nat} (h : find needle text = some k) :
    needle <+: text.drop k ∧ k + needle.length ≤ text.length ∧ (needle ≠ [] → ¬ needle <:+: text.take k) := by
  induction text generalizing k with
  | nil =>
    rw [find] at h
    split at h
    · case isTrue hnil =>
      obtain rfl := Option.some.inj h
      exact ⟨by simp [hnil], by simp [hnil], fun hne => absurd hnil hne⟩
    · cases h
  | cons c rest ih =>
    rw [find] at h
    split at h
    · case isTrue hstart =>
      obtain rfl := Option.some.inj h
      exact ⟨hstart, by simpa using hstart.length_le, by simp⟩
    · case isFalse hstart =>
      obtain ⟨j, hj, rfl⟩ := Option.map_eq_some_iff.mp h
      obtain ⟨hdrop, hlength, hbefore⟩ := ih hj
      refine ⟨hdrop, by simp only [List.length_cons]; omega, fun hne hfound => ?_⟩
      rw [List.take_succ_cons] at hfound
      rcases List.infix_cons_iff.mp hfound with hhead | htail
      · exact hstart (hhead.trans (List.cons_prefix_cons.mpr ⟨rfl, List.take_prefix _ _⟩))
      · exact hbefore hne htail

/-- A needle is not empty, so that a search for it moves on. -/
structure Needle (α : Type) where
  text : List α
  ne_nil : text ≠ []

def Needle.map (f : α → α) (needle : Needle α) : Needle α where
  text := needle.text.map f
  ne_nil := by simpa using needle.ne_nil

/-- The first place where the needle stands, replaced. -/
def replaceFirst (needle replacement text : List α) : List α :=
  match find needle text with
  | none => text
  | some start => text.take start ++ replacement ++ text.drop (start + needle.length)

/-- A needle that begins the text is found there. -/
theorem replaceFirst_append (needle replacement rest : List α) :
    replaceFirst needle replacement (needle ++ rest) = replacement ++ rest := by
  have hfind : find needle (needle ++ rest) = some 0 := by
    cases hcons : needle ++ rest with
    | nil => rw [find, if_pos (List.append_eq_nil_iff.mp hcons).1]
    | cons c tail => rw [find, if_pos (hcons ▸ List.prefix_append needle rest)]
  rw [replaceFirst, hfind]
  simp

/-- Every place where the normalized text holds the needle, from the left, is cut out and the
mark put there. -/
def replaceAll (normalize : α → α) (needle : Needle α) (mark : Mark α) (value : List α) : List α :=
  match _h : find needle.text (value.map normalize) with
  | none => value
  | some start =>
    value.take start ++ mark.text ++
      replaceAll normalize needle mark (value.drop (start + needle.text.length))
termination_by value.length
decreasing_by
  have hlength := (find_eq_some _h).2.1
  have hpos := List.length_pos_iff.mpr needle.ne_nil
  rw [List.length_map] at hlength
  rw [List.length_drop]
  omega

variable {normalize : α → α} {needle : Needle α} {mark : Mark α} {value : List α}

theorem replaceAll_patched : Patched mark value (replaceAll normalize needle mark value) := by
  fun_induction replaceAll normalize needle mark value with
  | case1 value hnone => exact Patched.refl value
  | case2 value start hsome ih =>
    have hcut := (Patched.refl (value.take start)).append
      (ih.cut ((value.drop start).take needle.text.length))
    rw [← List.drop_drop, List.take_append_drop, List.take_append_drop, ← List.append_assoc, List.drop_drop] at hcut
    exact hcut

theorem replaceAll_eq_self (h : Absent (fun word => word.map normalize = needle.text) value) :
    replaceAll normalize needle mark value = value := by
  rw [replaceAll, find_eq_none.mpr (absent_map_iff.mp h)]

/-- The words that normalize to the needle are gone. -/
theorem replaceAll_absent (hforeign : ∀ word, word.map normalize = needle.text → mark.Foreign word) :
    Absent (fun word => word.map normalize = needle.text) (replaceAll normalize needle mark value) := by
  intro word hword hfound
  have hmark := hforeign word hword
  fun_induction replaceAll normalize needle mark value with
  | case1 value hnone =>
    refine find_eq_none.mp hnone ?_
    rw [← hword]
    exact hfound.map normalize
  | case2 value start hsome ih =>
    have hsplit : ∀ rest, value.take start ++ mark.text ++ rest =
        value.take start ++ mark.opening :: (mark.body ++ mark.closing :: rest) := by
      simp [Mark.text]
    rw [hsplit] at hfound
    rcases infix_of_infix_append_cons hmark.opening hfound with hbefore | hrest
    · refine (find_eq_some hsome).2.2 needle.ne_nil ?_
      rw [← hword, ← List.map_take]
      exact hbefore.map normalize
    rcases infix_of_infix_append_cons hmark.closing hrest with hbody | hlater
    · exact hmark.body hbody
    · exact ih hlater

end Find

/-! ## Runs of a class of characters -/

section Runs

/-- A run of the class that the text does not continue on either side. -/
def IsMaximalRun (inRun : α → Bool) (run text : List α) : Prop :=
  ∃ before after, text = before ++ run ++ after ∧ (∀ c ∈ run, inRun c = true) ∧
    (∀ c ∈ before.getLast?, inRun c = false) ∧ ∀ c ∈ after.head?, inRun c = false

/-- The text with each run handed to `flush`: `output` is what is done, `token` the run that is
being read. -/
def rewriteRuns (inRun : α → Bool) (flush : List α → List α) (output token : List α) : List α → List α
  | [] => output ++ flush token
  | c :: rest =>
    if inRun c then rewriteRuns inRun flush output (token ++ [c]) rest
    else rewriteRuns inRun flush (output ++ flush token ++ [c]) [] rest

/-- A run that is bad gives way to the mark. -/
def redactRun (bad : List α → Bool) (mark : Mark α) (token : List α) : List α :=
  if bad token then mark.text else token

/-- The words of the class that are bad. -/
def BadRun (inRun : α → Bool) (bad : List α → Bool) (word : List α) : Prop :=
  (∀ c ∈ word, inRun c = true) ∧ bad word = true

variable {inRun : α → Bool} {bad : List α → Bool} {mark : Mark α} {text : List α}

theorem IsMaximalRun.bad_eq_false {run : List α} (h : IsMaximalRun inRun run text)
    (habsent : Absent (BadRun inRun bad) text) : bad run = false := by
  obtain ⟨before, after, rfl, hrun, -, -⟩ := h
  refine Bool.eq_false_iff.mpr fun hbad => habsent run ⟨hrun, hbad⟩ ?_
  exact ⟨before, after, rfl⟩

theorem redactRun_patched (token : List α) : Patched mark token (redactRun bad mark token) := by
  unfold redactRun
  split
  · exact Patched.cut_all token
  · exact Patched.refl token

theorem rewriteRuns_output (flush : List α → List α) (output token rest : List α) :
    rewriteRuns inRun flush output token rest = output ++ rewriteRuns inRun flush [] token rest := by
  induction rest generalizing output token with
  | nil => rfl
  | cons c rest ih =>
    simp only [rewriteRuns]
    split
    · exact ih output _
    · rw [ih (output ++ flush token ++ [c]), ih ([] ++ flush token ++ [c])]
      simp only [List.nil_append, List.append_assoc]

theorem rewriteRuns_patched (token rest : List α) :
    Patched mark (token ++ rest) (rewriteRuns inRun (redactRun bad mark) [] token rest) := by
  induction rest generalizing token with
  | nil =>
    rw [List.append_nil]
    exact redactRun_patched token
  | cons c rest ih =>
    rw [rewriteRuns]
    split
    · have h := ih (token ++ [c])
      rwa [List.append_assoc] at h
    · rw [rewriteRuns_output, List.nil_append, List.append_assoc]
      exact (redactRun_patched token).append ((ih []).keep c)

/-- A text without bad runs is left as it is. -/
theorem rewriteRuns_eq_self {token rest : List α} (htoken : ∀ c ∈ token, inRun c = true)
    (h : Absent (BadRun inRun bad) (token ++ rest)) :
    rewriteRuns inRun (redactRun bad mark) [] token rest = token ++ rest := by
  have hkept : ∀ {token rest : List α}, (∀ c ∈ token, inRun c = true) →
      Absent (BadRun inRun bad) (token ++ rest) → redactRun bad mark token = token := by
    intro token rest htoken h
    refine if_neg fun hbad => h token ⟨htoken, hbad⟩ (List.prefix_append token rest).isInfix
  induction rest generalizing token with
  | nil =>
    rw [rewriteRuns, hkept htoken h, List.nil_append, List.append_nil]
  | cons c rest ih =>
    rw [rewriteRuns]
    split
    · case isTrue hc =>
      have hmore : token ++ c :: rest = (token ++ [c]) ++ rest := by simp
      rw [hmore] at h ⊢
      refine ih (fun x hx => ?_) h
      rcases List.mem_append.mp hx with hx | hx
      · exact htoken x hx
      · exact List.mem_singleton.mp hx ▸ hc
    · rw [rewriteRuns_output, hkept htoken h, ih (by simp) fun word hword hfound => h word hword ?_]
      · simp
      · exact hfound.trans ⟨token ++ [c], [], by simp⟩

/-- No bad run is left. -/
theorem rewriteRuns_absent
    (hmono : ∀ {word token : List α}, word <:+: token → BadRun inRun bad word → (∀ c ∈ token, inRun c = true) →
      bad token = true)
    (hmark : ∀ word, BadRun inRun bad word → ¬ word <:+: mark.text) {output token : List α} (rest : List α)
    (htoken : ∀ c ∈ token, inRun c = true) (hend : ∀ c ∈ output.getLast?, inRun c = false)
    (houtput : Absent (BadRun inRun bad) output) :
    Absent (BadRun inRun bad) (rewriteRuns inRun (redactRun bad mark) output token rest) := by
  -- what is done ends before a run, so that no run spans it and what is flushed next
  have hflush : ∀ {output token : List α}, (∀ c ∈ token, inRun c = true) →
      (∀ c ∈ output.getLast?, inRun c = false) → Absent (BadRun inRun bad) output →
      Absent (BadRun inRun bad) (output ++ redactRun bad mark token) := by
    intro output token htoken hend houtput word hword hfound
    have hflushed : ¬ word <:+: redactRun bad mark token := by
      unfold redactRun
      split
      · exact hmark word hword
      · case isFalse hbad => exact fun hfound => hbad (hmono hfound hword htoken)
    rcases List.eq_nil_or_concat' output with rfl | ⟨before, c, rfl⟩
    · exact hflushed hfound
    · have hc : c ∉ word := fun hmem => by
        have hin := hword.1 c hmem
        rw [hend c (by simp)] at hin
        cases hin
      rw [List.append_assoc, List.singleton_append] at hfound
      rcases infix_of_infix_append_cons hc hfound with hbefore | hafter
      · exact houtput word hword (hbefore.trans (List.prefix_append before [c]).isInfix)
      · exact hflushed hafter
  induction rest generalizing output token with
  | nil => exact hflush htoken hend houtput
  | cons c rest ih =>
    rw [rewriteRuns]
    split
    · case isTrue hc =>
      refine ih (fun x hx => ?_) hend houtput
      rcases List.mem_append.mp hx with hx | hx
      · exact htoken x hx
      · exact List.mem_singleton.mp hx ▸ hc
    · case isFalse hc =>
      have hc : inRun c = false := Bool.eq_false_iff.mpr hc
      refine ih (by simp) (by simpa using hc) fun word hword hfound => ?_
      have hout : c ∉ word := fun hmem => by
        rw [hword.1 c hmem] at hc
        cases hc
      have hfound : word <:+: (output ++ redactRun bad mark token) ++ c :: [] := hfound
      rcases infix_of_infix_append_cons hout hfound with hbefore | hafter
      · exact hflush htoken hend houtput word hword hbefore
      · rw [List.infix_nil.mp hafter] at hword hfound
        exact hflush htoken hend houtput [] hword List.nil_infix

end Runs

/-! ## Tokens between separators -/

section Tokens

/-- The text cut after each separator. -/
def splitInclusive (isSeparator : α → Bool) : List α → List (List α)
  | [] => []
  | c :: rest =>
    if isSeparator c then [c] :: splitInclusive isSeparator rest
    else
      match splitInclusive isSeparator rest with
      | [] => [[c]]
      | token :: tokens => (c :: token) :: tokens

variable {isSeparator : α → Bool}

theorem splitInclusive_of_forall {token : List α} (hne : token ≠ [])
    (htoken : ∀ c ∈ token, isSeparator c = false) : splitInclusive isSeparator token = [token] := by
  induction token with
  | nil => exact absurd rfl hne
  | cons c token ih =>
    obtain ⟨hc, hrest⟩ := List.forall_mem_cons.mp htoken
    rw [splitInclusive, hc]
    cases token with
    | nil => rfl
    | cons next token => rw [ih (List.cons_ne_nil _ _) hrest]; rfl

theorem splitInclusive_append {token : List α} (htoken : ∀ c ∈ token, isSeparator c = false) {c : α}
    (hc : isSeparator c = true) (rest : List α) :
    splitInclusive isSeparator (token ++ c :: rest) = (token ++ [c]) :: splitInclusive isSeparator rest := by
  induction token with
  | nil =>
    rw [List.nil_append, splitInclusive, hc]
    rfl
  | cons x token ih =>
    obtain ⟨hx, hrest⟩ := List.forall_mem_cons.mp htoken
    rw [List.cons_append, splitInclusive, hx, ih hrest]
    rfl

/-- Rewriting the tokens one by one is rewriting the runs between the separators. -/
theorem flatMap_splitInclusive {f flush : List α → List α} (hnil : flush [] = [])
    (hlast : ∀ token : List α, (∀ c ∈ token, isSeparator c = false) → f token = flush token)
    (hinner : ∀ (token : List α) (c : α), (∀ c ∈ token, isSeparator c = false) → isSeparator c = true →
      f (token ++ [c]) = flush token ++ [c])
    {token : List α} (htoken : ∀ c ∈ token, isSeparator c = false) (rest : List α) :
    (splitInclusive isSeparator (token ++ rest)).flatMap f =
      rewriteRuns (fun c => !isSeparator c) flush [] token rest := by
  induction rest generalizing token with
  | nil =>
    rw [List.append_nil, rewriteRuns, List.nil_append]
    cases token with
    | nil => exact hnil.symm
    | cons x token =>
      rw [splitInclusive_of_forall (List.cons_ne_nil _ _) htoken, List.flatMap_singleton, hlast _ htoken]
  | cons c rest ih =>
    rw [rewriteRuns]
    cases hc : isSeparator c with
    | true =>
      rw [splitInclusive_append htoken hc, List.flatMap_cons, hinner token c htoken hc]
      have hrest := @ih [] (by simp)
      rw [List.nil_append] at hrest
      rw [hrest, Bool.not_true, if_neg Bool.false_ne_true, List.nil_append]
      exact (rewriteRuns_output flush _ [] rest).symm
    | false =>
      have hmore : token ++ c :: rest = (token ++ [c]) ++ rest := by simp
      rw [hmore, ih fun x hx => ?_]
      · rfl
      · rcases List.mem_append.mp hx with hx | hx
        · exact htoken x hx
        · exact List.mem_singleton.mp hx ▸ hc

end Tokens

end Rewriting
