/-
  AiPlatform.Lib.Spans

  Where in a text the words of a language stand.  `Span L text i j` says that the
  part of the text from `i` up to `j` is a word of `L`; a product of languages is
  walked span by span.
-/

import Mathlib.Computability.Language

namespace Spans

variable {α : Type} {text : List α} {i j k n : Nat}

/-- The part of the text from `i` up to `j` is a word of the language. -/
def Span (L : Language α) (text : List α) (i j : Nat) : Prop :=
  ∃ before part after, text = before ++ part ++ after ∧ part ∈ L ∧
    before.length = i ∧ i + part.length = j

variable {L M : Language α}

theorem Span.le (h : Span L text i j) : i ≤ j ∧ j ≤ text.length := by
  obtain ⟨before, part, after, rfl, -, rfl, rfl⟩ := h
  simp only [List.length_append]
  omega

theorem span_one : Span (1 : Language α) text i j ↔ i = j ∧ j ≤ text.length := by
  constructor
  · intro h
    have hle := h.le.2
    obtain ⟨before, part, after, -, hpart, -, hj⟩ := h
    rw [(Language.mem_one part).mp hpart] at hj
    exact ⟨hj, hle⟩
  · rintro ⟨rfl, hle⟩
    refine ⟨text.take i, [], text.drop i, ?_, Language.nil_mem_one, ?_, rfl⟩
    · rw [List.append_nil, List.take_append_drop]
    · rw [List.length_take, Nat.min_eq_left hle]

/-- A span of a product is a span of the one and, from where it ends, of the other. -/
theorem span_mul : Span (L * M) text i k ↔ ∃ j, Span L text i j ∧ Span M text j k := by
  constructor
  · rintro ⟨before, part, after, rfl, hpart, rfl, rfl⟩
    obtain ⟨first, hfirst, second, hsecond, rfl⟩ := Language.mem_mul.mp hpart
    refine ⟨before.length + first.length, ⟨before, first, second ++ after, ?_, hfirst, rfl, rfl⟩,
      ⟨before ++ first, second, after, ?_, hsecond, ?_, ?_⟩⟩
    · simp only [List.append_assoc]
    · simp only [List.append_assoc]
    · rw [List.length_append]
    · rw [List.length_append]
      omega
  · rintro ⟨j, ⟨before, first, rest, htext, hfirst, rfl, rfl⟩,
      ⟨before', second, after, htext', hsecond, hj, rfl⟩⟩
    have hsplit : before' = before ++ first ∧ second ++ after = rest := by
      have heq : before' ++ (second ++ after) = (before ++ first) ++ rest := by
        rw [← List.append_assoc, ← htext', htext]
      exact List.append_inj heq (by rw [hj, List.length_append])
    obtain ⟨rfl, rfl⟩ := hsplit
    refine ⟨before, first ++ second, after, ?_, Language.append_mem_mul hfirst hsecond, rfl, ?_⟩
    · rw [htext]
      simp only [List.append_assoc]
    · rw [List.length_append]
      omega

theorem span_pow_succ : Span (L ^ (n + 1)) text i k ↔
    ∃ j, Span (L ^ n) text i j ∧ Span L text j k := by
  rw [pow_succ, span_mul]

/-- Once there is no span of a power, there is none of a higher one. -/
theorem no_span_pow {m : Nat} (h : ∀ j, ¬ Span (L ^ n) text i j) (hle : n ≤ m) :
    ¬ Span (L ^ m) text i k := by
  rw [← Nat.add_sub_cancel' hle, pow_add, span_mul]
  rintro ⟨j, hj, -⟩
  exact h j hj

/-! ## One letter -/

/-- The letters a test lets through, as words of length one. -/
def letters (test : α → Bool) : Language α := {word | ∃ c, test c = true ∧ word = [c]}

variable {test : α → Bool}

theorem span_letters : Span (letters test) text i j ↔
    j = i + 1 ∧ ∃ c, text[i]? = some c ∧ test c = true := by
  constructor
  · rintro ⟨before, part, after, rfl, ⟨c, hc, rfl⟩, rfl, rfl⟩
    exact ⟨rfl, c, by simp, hc⟩
  · rintro ⟨rfl, c, hfound, hc⟩
    obtain ⟨hi, hget⟩ := List.getElem?_eq_some_iff.mp hfound
    refine ⟨text.take i, [c], text.drop (i + 1), ?_, ⟨c, hc, rfl⟩, ?_, rfl⟩
    · rw [List.append_assoc, List.singleton_append, ← hget, List.getElem_cons_drop,
        List.take_append_drop]
    · rw [List.length_take, Nat.min_eq_left hi.le]

theorem Span.letters_pow (h : Span (letters test ^ n) text i j) : j = i + n := by
  induction n generalizing j with
  | zero => exact (span_one.mp h).1.symm
  | succ n ih =>
    obtain ⟨m, hm, hlast⟩ := span_pow_succ.mp h
    rw [(span_letters.mp hlast).1, ih hm, Nat.add_assoc]

end Spans
