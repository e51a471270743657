/-
  AiPlatform.Lib.Base64

  The URL-safe base64 text of bytes, without the padding.
-/

import Mathlib.Data.String.Basic
import Mathlib.Tactic.Common

namespace Base64

def alphabet : List Char := "ABCDEFGHIJKLMNOPQRSTUVWXYZabcdefghijklmnopqrstuvwxyz0123456789-_".toList

/-- The character of the six lowest bits. -/
def digit (bits : Nat) : Char := alphabet.getD (bits % 64) 'A'

def chars : List UInt8 → List Char
  | a :: b :: c :: rest =>
    let bits := a.toNat * 65536 + b.toNat * 256 + c.toNat
    digit (bits / 262144) :: digit (bits / 4096) :: digit (bits / 64) :: digit bits :: chars rest
  | [a, b] =>
    let bits := a.toNat * 1024 + b.toNat * 4
    [digit (bits / 4096), digit (bits / 64), digit bits]
  | [a] =>
    let bits := a.toNat * 16
    [digit (bits / 64), digit bits]
  | [] => []

def encode (bytes : List UInt8) : String := String.ofList (chars bytes)

theorem digit_mem (bits : Nat) : digit bits ∈ alphabet := by
  have hlt : bits % 64 < alphabet.length := Nat.mod_lt bits (by decide)
  rw [digit, List.getD_eq_getElem?_getD, List.getElem?_eq_getElem hlt, Option.getD_some]
  exact List.getElem_mem hlt

theorem mem_alphabet {bytes : List UInt8} {c : Char} (h : c ∈ chars bytes) : c ∈ alphabet := by
  induction bytes using chars.induct with
  | case1 a b c' rest ih =>
    simp only [chars, List.mem_cons] at h
    rcases h with rfl | rfl | rfl | rfl | h
    · exact digit_mem _
    · exact digit_mem _
    · exact digit_mem _
    · exact digit_mem _
    · exact ih h
  | case2 a b =>
    simp only [chars, List.mem_cons, List.not_mem_nil, or_false] at h
    rcases h with rfl | rfl | rfl <;> exact digit_mem _
  | case3 a =>
    simp only [chars, List.mem_cons, List.not_mem_nil, or_false] at h
    rcases h with rfl | rfl <;> exact digit_mem _
  | case4 => exact absurd h List.not_mem_nil

/-- Four characters for each three bytes, and one more than the bytes that are left over. -/
theorem length_chars (bytes : List UInt8) : (chars bytes).length = (4 * bytes.length + 2) / 3 := by
  induction bytes using chars.induct with
  | case1 a b c rest ih =>
    simp only [chars, List.length_cons, ih]
    omega
  | case2 a b => simp [chars]
  | case3 a => simp [chars]
  | case4 => rfl

end Base64
