/-
  AiPlatform.Lib.Utf8

  Texts as UTF-8 bytes, and the decoding that puts U+FFFD for what is not valid: one for
  each byte that cannot begin a character and one for each character that breaks off.

  Bytes are natural numbers.  `slice` says in characters what a stretch of the bytes of a
  text holds: bytes of a character cut in front, whole characters, and whether one is cut
  behind; `decode_slice` is the decoding of such a stretch.
-/

import Mathlib.Data.List.Basic
import Mathlib.Tactic.Common

namespace Utf8

/-- U+FFFD -/
def replacement : Char := '\uFFFD'

/-! ## Encoding -/

/-- The bytes of a character: what begins it, and six bits in each byte that follows. -/
def bytesOf (c : Char) : List Nat :=
  let v := c.toNat
  if v < 0x80 then [v]
  else if v < 0x800 then [0xC0 + v / 64, 0x80 + v % 64]
  else if v < 0x10000 then [0xE0 + v / 4096, 0x80 + v / 64 % 64, 0x80 + v % 64]
  else [0xF0 + v / 262144, 0x80 + v / 4096 % 64, 0x80 + v / 64 % 64, 0x80 + v % 64]

def encode (text : List Char) : List Nat := text.flatMap bytesOf

/-! ## Decoding -/

/-- A character that has begun: its bits so far, the number of bytes to come, and what the
    next of them may be. -/
structure Pending where
  value : Nat
  remaining : Nat
  low : Nat
  high : Nat

/-- What a byte between characters gives. -/
def start (b : Nat) : List Char × Option Pending :=
  if b < 0x80 then ([Char.ofNat b], none)
  else if 0xC2 ≤ b ∧ b ≤ 0xDF then ([], some ⟨b - 0xC0, 1, 0x80, 0xBF⟩)
  else if b = 0xE0 then ([], some ⟨0x0, 2, 0xA0, 0xBF⟩)
  else if b = 0xED then ([], some ⟨0xD, 2, 0x80, 0x9F⟩)
  else if 0xE1 ≤ b ∧ b ≤ 0xEF then ([], some ⟨b - 0xE0, 2, 0x80, 0xBF⟩)
  else if b = 0xF0 then ([], some ⟨0x0, 3, 0x90, 0xBF⟩)
  else if b = 0xF4 then ([], some ⟨0x4, 3, 0x80, 0x8F⟩)
  else if 0xF1 ≤ b ∧ b ≤ 0xF3 then ([], some ⟨b - 0xF0, 3, 0x80, 0xBF⟩)
  else ([replacement], none)

/-- A byte that cannot go on with the character that has begun begins anew. -/
def next : Option Pending → Nat → List Char × Option Pending
  | none, b => start b
  | some pending, b =>
    if pending.low ≤ b ∧ b ≤ pending.high then
      let value := pending.value * 64 + (b - 0x80)
      if pending.remaining ≤ 1 then ([Char.ofNat value], none)
      else ([], some ⟨value, pending.remaining - 1, 0x80, 0xBF⟩)
    else (replacement :: (start b).1, (start b).2)

def decodeFrom : Option Pending → List Nat → List Char
  | none, [] => []
  | some _, [] => [replacement]
  | pending, b :: rest => (next pending b).1 ++ decodeFrom (next pending b).2 rest

/-- `bytes.decode("utf-8", errors="replace")` -/
def decode (bytes : List Nat) : List Char := decodeFrom none bytes

theorem decodeFrom_cons (pending : Option Pending) (b : Nat) (rest : List Nat) :
    decodeFrom pending (b :: rest) = (next pending b).1 ++ decodeFrom (next pending b).2 rest := by
  cases pending <;> rfl

/-! ## One character -/

/-- The bytes make up the character, and no fewer of them make up one. -/
def Spells (c : Char) : Option Pending → List Nat → Prop
  | _, [] => False
  | pending, [b] => next pending b = ([c], none)
  | pending, b :: b' :: later =>
    ∃ begun, next pending b = ([], some begun) ∧ Spells c (some begun) (b' :: later)

theorem Spells.decodeFrom {c : Char} {pending : Option Pending} {bytes : List Nat}
    (h : Spells c pending bytes) (rest : List Nat) :
    decodeFrom pending (bytes ++ rest) = c :: decode rest := by
  induction bytes generalizing pending with
  | nil => exact h.elim
  | cons b later ih =>
    rw [List.cons_append, decodeFrom_cons]
    cases later with
    | nil =>
      have hnext : next pending b = ([c], none) := h
      rw [hnext]
      rfl
    | cons b' later =>
      obtain ⟨begun, hnext, hlater⟩ := h
      rw [hnext, List.nil_append]
      exact ih hlater

/-- A character that breaks off is one U+FFFD. -/
theorem Spells.decodeFrom_take {c : Char} {pending : Pending} {bytes : List Nat} {n : Nat}
    (h : Spells c (some pending) bytes) (hn : n < bytes.length) :
    Utf8.decodeFrom (some pending) (bytes.take n) = [replacement] := by
  induction bytes generalizing pending n with
  | nil => exact h.elim
  | cons b later ih =>
    cases n with
    | zero => rfl
    | succ n =>
      rw [List.length_cons] at hn
      cases later with
      | nil =>
        rw [List.length_nil] at hn
        omega
      | cons b' later =>
        obtain ⟨begun, hnext, hlater⟩ := h
        rw [List.take_succ_cons, decodeFrom_cons, hnext, List.nil_append]
        exact ih hlater (by omega)

theorem Spells.decode_take {c : Char} {bytes : List Nat} {n : Nat} (h : Spells c none bytes)
    (hpos : 0 < n) (hn : n < bytes.length) : decode (bytes.take n) = [replacement] := by
  cases bytes with
  | nil => exact h.elim
  | cons b later =>
    obtain ⟨n, rfl⟩ : ∃ k, n = k + 1 := ⟨n - 1, by omega⟩
    rw [List.length_cons] at hn
    cases later with
    | nil =>
      rw [List.length_nil] at hn
      omega
    | cons b' later =>
      obtain ⟨begun, hnext, hlater⟩ := h
      rw [List.take_succ_cons, decode, decodeFrom_cons, hnext, List.nil_append]
      exact hlater.decodeFrom_take (by omega)

theorem next_of_some {pending : Pending} {b : Nat} (hlow : pending.low ≤ b) (hhigh : b ≤ pending.high)
    (hmore : 1 < pending.remaining) :
    next (some pending) b =
      ([], some ⟨pending.value * 64 + (b - 0x80), pending.remaining - 1, 0x80, 0xBF⟩) := by
  rw [next, if_pos ⟨hlow, hhigh⟩, if_neg (by omega)]

theorem next_of_last {pending : Pending} {b : Nat} (hlow : pending.low ≤ b) (hhigh : b ≤ pending.high)
    (hlast : pending.remaining ≤ 1) :
    next (some pending) b = ([Char.ofNat (pending.value * 64 + (b - 0x80))], none) := by
  rw [next, if_pos ⟨hlow, hhigh⟩, if_pos hlast]

/-- Two bytes are to come, of which the second is whatever follows. -/
theorem spells_two {c : Char} {value low high b b' : Nat} (hb : low ≤ b ∧ b ≤ high)
    (hb' : 0x80 ≤ b' ∧ b' ≤ 0xBF)
    (hc : c.toNat = (value * 64 + (b - 0x80)) * 64 + (b' - 0x80)) :
    Spells c (some ⟨value, 2, low, high⟩) [b, b'] := by
  refine ⟨⟨value * 64 + (b - 0x80), 1, 0x80, 0xBF⟩, ?_, ?_⟩
  · exact next_of_some hb.1 hb.2 Nat.one_lt_two
  · have hlast := @next_of_last ⟨value * 64 + (b - 0x80), 1, 0x80, 0xBF⟩ b' hb'.1 hb'.2 (Nat.le_refl 1)
    rw [← hc, Char.ofNat_toNat] at hlast
    exact hlast

/-- A character is no surrogate. -/
theorem toNat_valid (c : Char) : c.toNat < 0xD800 ∨ 0xDFFF < c.toNat ∧ c.toNat < 0x110000 := c.valid

theorem start_three {v : Nat} (hlow : 0x800 ≤ v) (hhigh : v < 0x10000) (hvalid : v < 0xD800 ∨ 0xDFFF < v) :
    ∃ low high, start (0xE0 + v / 4096) = ([], some ⟨v / 4096, 2, low, high⟩) ∧
      low ≤ 0x80 + v / 64 % 64 ∧ 0x80 + v / 64 % 64 ≤ high := by
  unfold start
  rw [if_neg (by omega), if_neg (by omega)]
  by_cases hzero : v / 4096 = 0
  · rw [if_pos (by omega), hzero]
    exact ⟨0xA0, 0xBF, rfl, by omega, by omega⟩
  · rw [if_neg (by omega)]
    by_cases hlast : v / 4096 = 0xD
    · rw [if_pos (by omega), hlast]
      exact ⟨0x80, 0x9F, rfl, by omega, by omega⟩
    · rw [if_neg (by omega), if_pos (by omega), Nat.add_sub_cancel_left]
      exact ⟨0x80, 0xBF, rfl, by omega, by omega⟩

theorem start_four {v : Nat} (hlow : 0x10000 ≤ v) (hhigh : v < 0x110000) :
    ∃ low high, start (0xF0 + v / 262144) = ([], some ⟨v / 262144, 3, low, high⟩) ∧
      low ≤ 0x80 + v / 4096 % 64 ∧ 0x80 + v / 4096 % 64 ≤ high := by
  unfold start
  rw [if_neg (by omega), if_neg (by omega), if_neg (by omega), if_neg (by omega), if_neg (by omega)]
  by_cases hzero : v / 262144 = 0
  · rw [if_pos (by omega), hzero]
    exact ⟨0x90, 0xBF, rfl, by omega, by omega⟩
  · rw [if_neg (by omega)]
    by_cases hlast : v / 262144 = 4
    · rw [if_pos (by omega), hlast]
      exact ⟨0x80, 0x8F, rfl, by omega, by omega⟩
    · rw [if_neg (by omega), if_pos (by omega), Nat.add_sub_cancel_left]
      exact ⟨0x80, 0xBF, rfl, by omega, by omega⟩

theorem spells_bytesOf (c : Char) : Spells c none (bytesOf c) := by
  have hvalid := toNat_valid c
  unfold bytesOf
  dsimp only
  by_cases hone : c.toNat < 0x80
  · rw [if_pos hone]
    show start c.toNat = ([c], none)
    rw [start, if_pos hone, Char.ofNat_toNat]
  · rw [if_neg hone]
    by_cases htwo : c.toNat < 0x800
    · rw [if_pos htwo]
      have hstart : start (0xC0 + c.toNat / 64) = ([], some ⟨c.toNat / 64, 1, 0x80, 0xBF⟩) := by
        rw [start, if_neg (by omega), if_pos (by omega), Nat.add_sub_cancel_left]
      have hlast := @next_of_last ⟨c.toNat / 64, 1, 0x80, 0xBF⟩ (0x80 + c.toNat % 64)
        (Nat.le_add_right _ _) (by show 0x80 + c.toNat % 64 ≤ 0xBF; omega) (Nat.le_refl 1)
      have hvalue : c.toNat / 64 * 64 + (0x80 + c.toNat % 64 - 0x80) = c.toNat := by omega
      refine ⟨_, hstart, ?_⟩
      rw [hvalue, Char.ofNat_toNat] at hlast
      exact hlast
    · rw [if_neg htwo]
      by_cases hthree : c.toNat < 0x10000
      · rw [if_pos hthree]
        obtain ⟨low, high, hstart, hb⟩ := @start_three c.toNat (by omega) hthree (by omega)
        exact ⟨_, hstart, spells_two hb (by omega) (by omega)⟩
      · rw [if_neg hthree]
        obtain ⟨low, high, hstart, hb⟩ := @start_four c.toNat (by omega) (by omega)
        refine ⟨_, hstart, _, next_of_some hb.1 hb.2 (by show 1 < 3; omega), ?_⟩
        exact spells_two (by omega) (by omega) (by dsimp only; omega)

/-! ## Texts -/

theorem decode_bytesOf_append (c : Char) (bytes : List Nat) :
    decode (bytesOf c ++ bytes) = c :: decode bytes :=
  (spells_bytesOf c).decodeFrom bytes

/-- A byte that goes on with a character. -/
def IsTail (b : Nat) : Prop := 0x80 ≤ b ∧ b ≤ 0xBF

theorem isTail_of_mem_tail {c : Char} {b : Nat} (h : b ∈ (bytesOf c).tail) : IsTail b := by
  unfold bytesOf at h
  dsimp only at h
  split at h
  · cases h
  · split at h
    · obtain rfl := List.mem_singleton.mp h
      exact ⟨by omega, by omega⟩
    · split at h
      · rcases List.mem_pair.mp h with rfl | rfl <;> exact ⟨by omega, by omega⟩
      · rcases List.mem_cons.mp h with rfl | h
        · exact ⟨by omega, by omega⟩
        · rcases List.mem_pair.mp h with rfl | rfl <;> exact ⟨by omega, by omega⟩

/-- Bytes that go on with no character are one U+FFFD each. -/
theorem decode_tails_append {tails : List Nat} (h : ∀ b ∈ tails, IsTail b) (bytes : List Nat) :
    decode (tails ++ bytes) = List.replicate tails.length replacement ++ decode bytes := by
  induction tails with
  | nil => rfl
  | cons b later ih =>
    rw [List.forall_mem_cons] at h
    have hb : 0x80 ≤ b ∧ b ≤ 0xBF := h.1
    have hstart : start b = ([replacement], none) := by
      unfold start
      rw [if_neg (by omega), if_neg (by omega), if_neg (by omega), if_neg (by omega), if_neg (by omega),
        if_neg (by omega), if_neg (by omega), if_neg (by omega)]
    rw [List.cons_append, decode, decodeFrom_cons, next, hstart, ← decode, ih h.2, List.length_cons,
      List.replicate_succ]
    rfl

/-! ## Stretches of the bytes -/

/-- The bytes left of the character that position `n` of the bytes is in, and the
    characters after it. -/
def dropBytes : Nat → List Char → Nat × List Char
  | _, [] => (0, [])
  | n, c :: later =>
    if n = 0 then (0, c :: later)
    else if n < (bytesOf c).length then ((bytesOf c).length - n, later)
    else dropBytes (n - (bytesOf c).length) later

/-- The whole characters among the first `n` bytes, and whether there are bytes of
    another. -/
def takeBytes : Nat → List Char → List Char × Bool
  | _, [] => ([], false)
  | n, c :: later =>
    if n = 0 then ([], false)
    else if n < (bytesOf c).length then ([], true)
    else (c :: (takeBytes (n - (bytesOf c).length) later).1, (takeBytes (n - (bytesOf c).length) later).2)

/-- What a stretch of bytes holds: bytes of a character cut in front, whole characters, and
    whether one is cut behind. -/
structure Slice where
  stray : Nat
  whole : List Char
  cut : Bool

/-- The `count` bytes of the text from the position `first` on. -/
def slice (text : List Char) (first count : Nat) : Slice :=
  let (stray, later) := dropBytes first text
  let (whole, cut) := takeBytes (count - stray) later
  ⟨min stray count, whole, cut⟩

/-- The stretch begins and ends between characters. -/
def Slice.Aligned (slice : Slice) : Prop := slice.stray = 0 ∧ slice.cut = false

def Slice.text (slice : Slice) : List Char :=
  List.replicate slice.stray replacement ++ (slice.whole ++ if slice.cut then [replacement] else [])

theorem drop_encode (n : Nat) (text : List Char) :
    ∃ tails, (encode text).drop n = tails ++ encode (dropBytes n text).2 ∧
      tails.length = (dropBytes n text).1 ∧ ∀ b ∈ tails, IsTail b := by
  induction text generalizing n with
  | nil => exact ⟨[], List.drop_nil, rfl, nofun⟩
  | cons c later ih =>
    unfold dropBytes
    split
    · case isTrue hzero =>
      rw [hzero]
      exact ⟨[], rfl, rfl, nofun⟩
    · case isFalse hpos =>
      rw [encode, List.flatMap_cons]
      split
      · case isTrue hlt =>
        refine ⟨(bytesOf c).drop n, ?_, List.length_drop, ?_⟩
        · rw [List.drop_append_of_le_length (by omega), ← encode]
        · intro b hb
          obtain ⟨k, rfl⟩ : ∃ k, n = k + 1 := ⟨n - 1, by omega⟩
          rw [← List.drop_tail] at hb
          exact isTail_of_mem_tail (List.mem_of_mem_drop hb)
      · case isFalse hge =>
        rw [List.drop_append, List.drop_eq_nil_of_le (by omega), List.nil_append, ← encode]
        exact ih _

theorem decode_take_encode (n : Nat) (text : List Char) :
    decode ((encode text).take n) =
      (takeBytes n text).1 ++ if (takeBytes n text).2 then [replacement] else [] := by
  induction text generalizing n with
  | nil =>
    rw [encode, List.flatMap_nil, List.take_nil]
    rfl
  | cons c later ih =>
    unfold takeBytes
    split
    · case isTrue hzero =>
      rw [hzero]
      rfl
    · case isFalse hpos =>
      rw [encode, List.flatMap_cons]
      split
      · case isTrue hlt =>
        rw [List.take_append_of_le_length (by omega)]
        exact (spells_bytesOf c).decode_take (by omega) hlt
      · case isFalse hge =>
        rw [List.take_append, List.take_of_length_le (by omega), decode_bytesOf_append, ← encode, ih]
        rfl

/-- A stretch of the bytes of a text is read as its whole characters, with U+FFFD for what
    is cut. -/
theorem decode_slice (text : List Char) (first count : Nat) :
    decode (((encode text).drop first).take count) = (slice text first count).text := by
  obtain ⟨tails, hdrop, hlength, htails⟩ := drop_encode first text
  have hstray : ∀ b ∈ tails.take count, IsTail b := fun b hb => htails b (List.mem_of_mem_take hb)
  rw [hdrop, List.take_append, decode_tails_append hstray, decode_take_encode, List.length_take, hlength,
    Nat.min_comm]
  rfl

theorem dropBytes_suffix (n : Nat) (text : List Char) : (dropBytes n text).2 <:+ text := by
  induction text generalizing n with
  | nil => exact List.suffix_refl []
  | cons c later ih =>
    unfold dropBytes
    split
    · exact List.suffix_refl _
    · split
      · exact List.suffix_cons c later
      · exact (ih _).trans (List.suffix_cons c later)

theorem takeBytes_isPrefix (n : Nat) (text : List Char) : (takeBytes n text).1 <+: text := by
  induction text generalizing n with
  | nil => exact List.prefix_refl []
  | cons c later ih =>
    unfold takeBytes
    split
    · exact List.nil_prefix
    · split
      · exact List.nil_prefix
      · exact (List.prefix_cons_inj c).mpr (ih _)

theorem whole_isInfix (text : List Char) (first count : Nat) : (slice text first count).whole <:+: text :=
  (takeBytes_isPrefix _ _).isInfix.trans (dropBytes_suffix first text).isInfix

theorem Slice.text_of_aligned {slice : Slice} (h : slice.Aligned) : slice.text = slice.whole := by
  obtain ⟨hstray, hcut⟩ := h
  rw [Slice.text, hstray, hcut, List.replicate_zero, List.nil_append]
  exact List.append_nil _

/-- A stretch that cuts a character is read with a U+FFFD. -/
theorem Slice.replacement_mem {slice : Slice} (h : ¬ slice.Aligned) : replacement ∈ slice.text := by
  unfold Slice.text
  by_cases hstray : slice.stray = 0
  · have hcut : slice.cut = true := by
      by_contra hcut
      exact h ⟨hstray, Bool.eq_false_iff.mpr hcut⟩
    rw [hcut]
    exact List.mem_append_right _ (List.mem_append_right _ List.mem_cons_self)
  · exact List.mem_append_left _ (List.mem_replicate.mpr ⟨hstray, rfl⟩)

end Utf8
