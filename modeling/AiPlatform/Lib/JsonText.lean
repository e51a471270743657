/-
  AiPlatform.Lib.JsonText

  Compact JSON text and its unique reading.

  A document is a tree whose leaves are atoms (the text of a number, `true`,
  `null`, ..) and strings.  `render` writes it without blanks.  `render_inj` says
  that the text determines the document, also when more text follows it, as long
  as an atom cannot run on into what follows.
-/

import Mathlib.Tactic.Common
import Mathlib.Tactic.IntervalCases

namespace JsonText

inductive Doc where
  | atom (text : List Char)
  | string (text : List Char)
  | array (items : List Doc)
  | object (members : List (List Char × Doc))
  deriving Repr, Inhabited

/-! ## Strings -/

def hexDigit (n : Nat) : Char := Nat.digitChar n

/-- The escape of a character: the short one where JSON has one, `\u00xx` for
    another control character, and none for the rest. -/
def escape (c : Char) : List Char :=
  if c = '"' then ['\\', '"']
  else if c = '\\' then ['\\', '\\']
  else if c = '\x08' then ['\\', 'b']
  else if c = '\x0c' then ['\\', 'f']
  else if c = '\n' then ['\\', 'n']
  else if c = '\r' then ['\\', 'r']
  else if c = '\t' then ['\\', 't']
  else if c.toNat < 32 then
    ['\\', 'u', '0', '0', hexDigit (c.toNat / 16), hexDigit (c.toNat % 16)]
  else [c]

/-- The text of a string after its opening quote. -/
def quoted : List Char → List Char
  | [] => ['"']
  | c :: rest => escape c ++ quoted rest

/-- The value of a hexadecimal digit. -/
def hexValue (c : Char) : Nat :=
  if c.toNat < 58 then c.toNat - 48 else c.toNat - 87

theorem hexValue_hexDigit {n : Nat} (hn : n < 16) : hexValue (hexDigit n) = n := by
  interval_cases n <;> rfl

/-- Reads one character of a string back. -/
def unescape : List Char → Option (Char × List Char)
  | '\\' :: 'u' :: _ :: _ :: high :: low :: rest =>
      some (Char.ofNat (16 * hexValue high + hexValue low), rest)
  | '\\' :: 'b' :: rest => some ('\x08', rest)
  | '\\' :: 'f' :: rest => some ('\x0c', rest)
  | '\\' :: 'n' :: rest => some ('\n', rest)
  | '\\' :: 'r' :: rest => some ('\r', rest)
  | '\\' :: 't' :: rest => some ('\t', rest)
  | '\\' :: c :: rest => some (c, rest)
  | '"' :: _ => none
  | c :: rest => some (c, rest)
  | [] => none

theorem unescape_control {n : Nat} (hn : n < 32) (rest : List Char) :
    unescape ('\\' :: 'u' :: '0' :: '0' :: hexDigit (n / 16) :: hexDigit (n % 16) :: rest) =
      some (Char.ofNat n, rest) := by
  rw [unescape, hexValue_hexDigit (by omega), hexValue_hexDigit (by omega), Nat.div_add_mod]

theorem unescape_escape (c : Char) (rest : List Char) :
    unescape (escape c ++ rest) = some (c, rest) := by
  unfold escape
  split
  · subst c; rfl
  · split
    · subst c; rfl
    · split
      · subst c; rfl
      · split
        · subst c; rfl
        · split
          · subst c; rfl
          · split
            · subst c; rfl
            · split
              · subst c; rfl
              · split
                · rename_i hcontrol
                  have hchar := unescape_control hcontrol rest
                  rw [Char.ofNat_toNat] at hchar
                  exact hchar
                · rename_i hquote hslash _ _ _ _ _ _
                  rw [List.singleton_append]
                  unfold unescape
                  split <;> simp_all

/-- An escape does not start with the closing quote. -/
theorem head_escape (c : Char) (rest : List Char) (other : List Char) :
    escape c ++ rest ≠ '"' :: other := by
  intro h
  have hread := unescape_escape c rest
  rw [h] at hread
  cases hread

/-- Two strings with the same text are the same, and so is what follows them. -/
theorem quoted_inj {a b s t : List Char} (h : quoted a ++ s = quoted b ++ t) : a = b ∧ s = t := by
  induction a generalizing b with
  | nil =>
    cases b with
    | nil => exact ⟨rfl, List.tail_eq_of_cons_eq h⟩
    | cons d b =>
      rw [quoted, quoted, List.append_assoc, List.singleton_append] at h
      exact absurd h.symm (head_escape d _ _)
  | cons c a ih =>
    cases b with
    | nil =>
      rw [quoted, quoted, List.append_assoc, List.singleton_append] at h
      exact absurd h (head_escape c _ _)
    | cons d b =>
      rw [quoted, quoted, List.append_assoc, List.append_assoc] at h
      have hread := unescape_escape c (quoted a ++ s)
      rw [h, unescape_escape] at hread
      obtain ⟨rfl, hrest⟩ := Prod.mk.inj (Option.some.inj hread)
      obtain ⟨rfl, rfl⟩ := ih hrest.symm
      exact ⟨rfl, rfl⟩

/-! ## Documents -/

mutual

def render : Doc → List Char
  | .atom text => text
  | .string text => '"' :: quoted text
  | .array items => '[' :: renderItems items
  | .object members => '\x7b' :: renderMembers members

/-- The items of an array, with the closing bracket. -/
def renderItems : List Doc → List Char
  | [] => [']']
  | item :: rest => render item ++ renderMoreItems rest

def renderMoreItems : List Doc → List Char
  | [] => [']']
  | item :: rest => ',' :: (render item ++ renderMoreItems rest)

/-- The members of an object, with the closing brace. -/
def renderMembers : List (List Char × Doc) → List Char
  | [] => ['\x7d']
  | (key, value) :: rest =>
      '"' :: (quoted key ++ ':' :: (render value ++ renderMoreMembers rest))

def renderMoreMembers : List (List Char × Doc) → List Char
  | [] => ['\x7d']
  | (key, value) :: rest =>
      ',' :: '"' :: (quoted key ++ ':' :: (render value ++ renderMoreMembers rest))

end

/-! ## Lengths -/

theorem length_escape_le (c : Char) : (escape c).length ≤ 6 := by
  unfold escape
  repeat' split
  all_goals simp

theorem length_quoted (text : List Char) :
    (quoted text).length = 1 + (text.map fun c => (escape c).length).sum := by
  induction text with
  | nil => rfl
  | cons c rest ih =>
    rw [quoted, List.length_append, ih, List.map_cons, List.sum_cons]
    omega

theorem length_quoted_le (text : List Char) : (quoted text).length ≤ 1 + 6 * text.length := by
  induction text with
  | nil => simp [quoted]
  | cons c rest ih =>
    have hescape := length_escape_le c
    rw [quoted, List.length_append, List.length_cons]
    omega

/-- What a member takes up, with the comma or the brace before it. -/
def memberLength (member : List Char × Doc) : Nat :=
  (quoted member.1).length + (render member.2).length + 3

theorem length_renderMoreMembers (members : List (List Char × Doc)) :
    (renderMoreMembers members).length = 1 + (members.map memberLength).sum := by
  induction members with
  | nil => rfl
  | cons member rest ih =>
    rw [renderMoreMembers, List.length_cons, List.length_cons, List.length_append, List.length_cons,
      List.length_append, ih, List.map_cons, List.sum_cons, memberLength]
    omega

/-- The length of an object does not depend on the order of its members. -/
theorem length_render_object {members : List (List Char × Doc)} (h : members ≠ []) :
    (render (.object members)).length = 1 + (members.map memberLength).sum := by
  cases members with
  | nil => exact absurd rfl h
  | cons member rest =>
    rw [render, renderMembers, List.length_cons, List.length_cons, List.length_append, List.length_cons,
      List.length_append, length_renderMoreMembers, List.map_cons, List.sum_cons, memberLength]
    omega

theorem length_renderMoreItems (items : List Doc) :
    (renderMoreItems items).length = 1 + (items.map fun item => (render item).length + 1).sum := by
  induction items with
  | nil => rfl
  | cons item rest ih =>
    rw [renderMoreItems, List.length_cons, List.length_append, ih, List.map_cons, List.sum_cons]
    omega

theorem length_render_array {items : List Doc} (h : items ≠ []) :
    (render (.array items)).length = 1 + (items.map fun item => (render item).length + 1).sum := by
  cases items with
  | nil => exact absurd rfl h
  | cons item rest =>
    rw [render, renderItems, List.length_cons, List.length_append, length_renderMoreItems, List.map_cons,
      List.sum_cons]
    omega

/-- A character with a meaning of its own in JSON. -/
def isPunctuation (c : Char) : Bool :=
  c == '"' || c == '[' || c == ']' || c == '\x7b' || c == '\x7d' || c == ',' || c == ':'

/-- The text of an atom is not empty and holds no punctuation. -/
def IsAtom (text : List Char) : Prop :=
  text ≠ [] ∧ ∀ c ∈ text, isPunctuation c = false

mutual

/-- Every atom of the document is one. -/
def WellFormed : Doc → Prop
  | .atom text => IsAtom text
  | .string _ => True
  | .array items => WellFormedItems items
  | .object members => WellFormedMembers members

def WellFormedItems : List Doc → Prop
  | [] => True
  | item :: rest => WellFormed item ∧ WellFormedItems rest

def WellFormedMembers : List (List Char × Doc) → Prop
  | [] => True
  | (_, value) :: rest => WellFormed value ∧ WellFormedMembers rest

end

/-- No atom runs on into this text. -/
def Stops (text : List Char) : Prop :=
  ∀ c ∈ text.head?, isPunctuation c = true

theorem stops_nil : Stops [] := by
  intro c hc
  cases hc

theorem stops_cons {c : Char} {rest : List Char} (h : isPunctuation c = true) :
    Stops (c :: rest) := by
  intro d hd
  obtain rfl := Option.some.inj hd
  exact h

theorem stops_renderMoreItems (items : List Doc) (s : List Char) :
    Stops (renderMoreItems items ++ s) := by
  cases items with
  | nil => exact stops_cons rfl
  | cons item rest => exact stops_cons rfl

theorem stops_renderMoreMembers (members : List (List Char × Doc)) (s : List Char) :
    Stops (renderMoreMembers members ++ s) := by
  cases members with
  | nil => exact stops_cons rfl
  | cons member rest => exact stops_cons rfl

/-- Atoms end where the punctuation starts. -/
theorem atom_inj {a b s t : List Char} (ha : ∀ c ∈ a, isPunctuation c = false)
    (hb : ∀ c ∈ b, isPunctuation c = false) (hs : Stops s) (ht : Stops t)
    (h : a ++ s = b ++ t) : a = b ∧ s = t := by
  induction a generalizing b with
  | nil =>
    cases b with
    | nil => exact ⟨rfl, h⟩
    | cons d b =>
      have hhead : isPunctuation d = true := hs d (by rw [show s = d :: (b ++ t) from h]; rfl)
      rw [hb d List.mem_cons_self] at hhead
      cases hhead
  | cons c a ih =>
    cases b with
    | nil =>
      have hhead : isPunctuation c = true := ht c (by rw [show t = c :: (a ++ s) from h.symm]; rfl)
      rw [ha c List.mem_cons_self] at hhead
      cases hhead
    | cons d b =>
      obtain ⟨rfl, hrest⟩ := List.cons_eq_cons.mp h
      obtain ⟨rfl, rfl⟩ := ih (fun c hc => ha c (List.mem_cons_of_mem _ hc))
        (fun c hc => hb c (List.mem_cons_of_mem _ hc)) hrest
      exact ⟨rfl, rfl⟩

/-- An atom does not start like a document of another kind. -/
theorem isAtom_of_all {text : List Char} (hne : text ≠ [])
    (h : text.all (fun c => !isPunctuation c) = true) : IsAtom text :=
  ⟨hne, fun c hc => Bool.not_eq_true' _ ▸ List.all_eq_true.mp h c hc⟩

theorem atom_ne_cons {text s t : List Char} {c : Char} (htext : IsAtom text)
    (hc : isPunctuation c = true) : text ++ s ≠ c :: t := by
  intro h
  obtain ⟨hne, hchars⟩ := htext
  cases text with
  | nil => exact hne rfl
  | cons d rest =>
    obtain ⟨rfl, -⟩ := List.cons_eq_cons.mp h
    rw [hchars d List.mem_cons_self] at hc
    cases hc

theorem render_ne_close {d : Doc} {s t : List Char} (hd : WellFormed d) :
    render d ++ s ≠ ']' :: t := by
  cases d with
  | atom text => exact atom_ne_cons hd rfl
  | string text => simp [render]
  | array items => simp [render]
  | object members => simp [render]

mutual

/-- The text of a document determines it, and what follows it. -/
theorem render_inj : ∀ {d e : Doc} {s t : List Char}, WellFormed d → WellFormed e → Stops s →
    Stops t → render d ++ s = render e ++ t → d = e ∧ s = t
  | .atom a, .atom b, s, t, ha, hb, hs, ht, h => by
    obtain ⟨rfl, rfl⟩ := atom_inj ha.2 hb.2 hs ht h
    exact ⟨rfl, rfl⟩
  | .atom _, .string _, _, _, ha, _, _, _, h => absurd h (atom_ne_cons ha rfl)
  | .atom _, .array _, _, _, ha, _, _, _, h => absurd h (atom_ne_cons ha rfl)
  | .atom _, .object _, _, _, ha, _, _, _, h => absurd h (atom_ne_cons ha rfl)
  | .string _, .atom _, _, _, _, hb, _, _, h => absurd h.symm (atom_ne_cons hb rfl)
  | .array _, .atom _, _, _, _, hb, _, _, h => absurd h.symm (atom_ne_cons hb rfl)
  | .object _, .atom _, _, _, _, hb, _, _, h => absurd h.symm (atom_ne_cons hb rfl)
  | .string a, .string b, s, t, _, _, _, _, h => by
    obtain ⟨rfl, rfl⟩ := quoted_inj (List.tail_eq_of_cons_eq h)
    exact ⟨rfl, rfl⟩
  | .string _, .array _, _, _, _, _, _, _, h => by simp [render] at h
  | .string _, .object _, _, _, _, _, _, _, h => by simp [render] at h
  | .array _, .string _, _, _, _, _, _, _, h => by simp [render] at h
  | .array _, .object _, _, _, _, _, _, _, h => by simp [render] at h
  | .object _, .string _, _, _, _, _, _, _, h => by simp [render] at h
  | .object _, .array _, _, _, _, _, _, _, h => by simp [render] at h
  | .array xs, .array ys, s, t, hx, hy, _, _, h => by
    obtain ⟨rfl, rfl⟩ := renderItems_inj hx hy (List.tail_eq_of_cons_eq h)
    exact ⟨rfl, rfl⟩
  | .object xs, .object ys, s, t, hx, hy, _, _, h => by
    obtain ⟨rfl, rfl⟩ := renderMembers_inj hx hy (List.tail_eq_of_cons_eq h)
    exact ⟨rfl, rfl⟩

theorem renderItems_inj : ∀ {xs ys : List Doc} {s t : List Char}, WellFormedItems xs →
    WellFormedItems ys → renderItems xs ++ s = renderItems ys ++ t → xs = ys ∧ s = t
  | [], [], _, _, _, _, h => ⟨rfl, List.tail_eq_of_cons_eq h⟩
  | [], y :: ys, s, t, _, hy, h => by
    rw [renderItems, renderItems, List.append_assoc] at h
    exact absurd h.symm (render_ne_close hy.1)
  | x :: xs, [], s, t, hx, _, h => by
    rw [renderItems, renderItems, List.append_assoc] at h
    exact absurd h (render_ne_close hx.1)
  | x :: xs, y :: ys, s, t, hx, hy, h => by
    rw [renderItems, renderItems, List.append_assoc, List.append_assoc] at h
    obtain ⟨rfl, hrest⟩ := render_inj hx.1 hy.1 (stops_renderMoreItems xs s)
      (stops_renderMoreItems ys t) h
    obtain ⟨rfl, rfl⟩ := renderMoreItems_inj hx.2 hy.2 hrest
    exact ⟨rfl, rfl⟩

theorem renderMoreItems_inj : ∀ {xs ys : List Doc} {s t : List Char}, WellFormedItems xs →
    WellFormedItems ys → renderMoreItems xs ++ s = renderMoreItems ys ++ t → xs = ys ∧ s = t
  | [], [], _, _, _, _, h => ⟨rfl, List.tail_eq_of_cons_eq h⟩
  | [], y :: ys, s, t, _, _, h => by simp [renderMoreItems] at h
  | x :: xs, [], s, t, _, _, h => by simp [renderMoreItems] at h
  | x :: xs, y :: ys, s, t, hx, hy, h => by
    rw [renderMoreItems, renderMoreItems, List.cons_append, List.cons_append] at h
    have htail := List.tail_eq_of_cons_eq h
    rw [List.append_assoc, List.append_assoc] at htail
    obtain ⟨rfl, hrest⟩ := render_inj hx.1 hy.1 (stops_renderMoreItems xs s)
      (stops_renderMoreItems ys t) htail
    obtain ⟨rfl, rfl⟩ := renderMoreItems_inj hx.2 hy.2 hrest
    exact ⟨rfl, rfl⟩

theorem renderMembers_inj : ∀ {xs ys : List (List Char × Doc)} {s t : List Char},
    WellFormedMembers xs → WellFormedMembers ys →
      renderMembers xs ++ s = renderMembers ys ++ t → xs = ys ∧ s = t
  | [], [], _, _, _, _, h => ⟨rfl, List.tail_eq_of_cons_eq h⟩
  | [], (k, y) :: ys, s, t, _, _, h => by simp [renderMembers] at h
  | (k, x) :: xs, [], s, t, _, _, h => by simp [renderMembers] at h
  | (k, x) :: xs, (l, y) :: ys, s, t, hx, hy, h => by
    simp only [renderMembers, List.cons_append] at h
    have htail := List.tail_eq_of_cons_eq h
    simp only [List.append_assoc, List.cons_append] at htail
    obtain ⟨rfl, hvalue⟩ := quoted_inj htail
    obtain ⟨rfl, hrest⟩ := render_inj hx.1 hy.1 (stops_renderMoreMembers xs s)
      (stops_renderMoreMembers ys t) (List.tail_eq_of_cons_eq hvalue)
    obtain ⟨rfl, rfl⟩ := renderMoreMembers_inj hx.2 hy.2 hrest
    exact ⟨rfl, rfl⟩

theorem renderMoreMembers_inj : ∀ {xs ys : List (List Char × Doc)} {s t : List Char},
    WellFormedMembers xs → WellFormedMembers ys →
      renderMoreMembers xs ++ s = renderMoreMembers ys ++ t → xs = ys ∧ s = t
  | [], [], _, _, _, _, h => ⟨rfl, List.tail_eq_of_cons_eq h⟩
  | [], (k, y) :: ys, s, t, _, _, h => by simp [renderMoreMembers] at h
  | (k, x) :: xs, [], s, t, _, _, h => by simp [renderMoreMembers] at h
  | (k, x) :: xs, (l, y) :: ys, s, t, hx, hy, h => by
    simp only [renderMoreMembers, List.cons_append] at h
    have htail := List.tail_eq_of_cons_eq (List.tail_eq_of_cons_eq h)
    simp only [List.append_assoc, List.cons_append] at htail
    obtain ⟨rfl, hvalue⟩ := quoted_inj htail
    obtain ⟨rfl, hrest⟩ := render_inj hx.1 hy.1 (stops_renderMoreMembers xs s)
      (stops_renderMoreMembers ys t) (List.tail_eq_of_cons_eq hvalue)
    obtain ⟨rfl, rfl⟩ := renderMoreMembers_inj hx.2 hy.2 hrest
    exact ⟨rfl, rfl⟩

end

/-- Documents with the same text are the same. -/
theorem render_injective {d e : Doc} (hd : WellFormed d) (he : WellFormed e)
    (h : render d = render e) : d = e :=
  (render_inj hd he stops_nil stops_nil (congrArg (· ++ []) h)).1

end JsonText
