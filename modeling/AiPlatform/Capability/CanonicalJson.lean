/-
  AiPlatform.Capability.CanonicalJson

  The JSON text that hashes and signatures are taken of, and whether it depends on
  the order in which the members of an object are listed.

  `serde_json` is built with one of two maps: a tree that lists its members by key,
  or (`preserve_order`) one that lists them as they were inserted.  `canonicalize`
  collects the members into that map again and sorts nothing itself.
-/

import AiPlatform.Capability.Validation
import AiPlatform.Lib.JsonText
import AiPlatform.Lib.KeyedList
import AiPlatform.Lib.ShortestFloat

namespace AiPlatform.Capability

open AiPlatform.Json AiPlatform.Checks ShortestFloat

/-! ## The map -/

/-- The map `serde_json` is built with. -/
inductive MapOrder where
  | byKey
  | byInsertion
  deriving DecidableEq, Repr

/-- The members of the map after these were inserted in turn. -/
def MapOrder.collect {β : Type} (order : MapOrder) (members : List (String × β)) :
    List (String × β) :=
  match order with
  | .byKey => KeyedList.collectByKey members
  | .byInsertion => KeyedList.collectLast members

/-! ## The text -/

/-- The bits of a number that is neither infinite nor `NaN`. -/
def isFinite (bits : UInt64) : Bool :=
  (bits >>> 52) &&& 0x7ff != 0x7ff

/-- The text of an integer, as `itoa` writes it. -/
def integerText (n : Int) : List Char :=
  if n < 0 then '-' :: Nat.toDigits 10 n.natAbs else Nat.toDigits 10 n.natAbs

/-- The text of a number; `floatText` is the text of a float. -/
def numberText (floatText : UInt64 → List Char) : Number → List Char
  | .posInt n => integerText n.toNat
  | .negInt n => integerText n.toInt
  | .float bits => floatText bits

def nullText : List Char := ['n', 'u', 'l', 'l']

def boolText : Bool → List Char
  | true => ['t', 'r', 'u', 'e']
  | false => ['f', 'a', 'l', 's', 'e']

mutual

/-- What `serde_json` writes for a value. -/
def document (floatText : UInt64 → List Char) : Value → JsonText.Doc
  | .null => .atom nullText
  | .bool b => .atom (boolText b)
  | .number n => .atom (numberText floatText n)
  | .string s => .string s.toList
  | .array items => .array (documentItems floatText items)
  | .object members => .object (documentMembers floatText members)

def documentItems (floatText : UInt64 → List Char) : List Value → List JsonText.Doc
  | [] => []
  | value :: rest => document floatText value :: documentItems floatText rest

def documentMembers (floatText : UInt64 → List Char) :
    List (String × Value) → List (List Char × JsonText.Doc)
  | [] => []
  | (key, value) :: rest =>
      (key.toList, document floatText value) :: documentMembers floatText rest

end

/-- `serde_json::to_string` -/
def jsonText (floatText : UInt64 → List Char) (value : Value) : String :=
  String.ofList (JsonText.render (document floatText value))

/-- What is relied on of the text of a float: it is in the alphabet of numbers, it
    cannot be read as an integer, and it reads back as the float it was written
    for. -/
structure FloatText (floatText : UInt64 → List Char) : Prop where
  chars : ∀ bits, isFinite bits = true → AllNumeric (floatText bits)
  marked : ∀ bits, isFinite bits = true → '.' ∈ floatText bits ∨ 'e' ∈ floatText bits
  injective : ∀ a b, isFinite a = true → isFinite b = true → floatText a = floatText b → a = b

/-- The crates are built with `serde_json` over this map. -/
structure SerdeJson (order : MapOrder) (floatText : UInt64 → List Char) (crates : Crates) :
    Prop where
  float : FloatText floatText
  toText : ∀ value, crates.toText value = some (jsonText floatText value)
  collect : crates.collect = order.collect

/-- What every `serde_json::Number` satisfies. -/
def numberValid : Number → Bool
  | .posInt _ => true
  | .negInt n => n.toInt < 0
  | .float bits => isFinite bits

mutual

/-- What every `serde_json::Value` satisfies: no object has a key twice. -/
def valid : Value → Prop
  | .null | .bool _ | .string _ => True
  | .number n => numberValid n = true
  | .array items => validItems items
  | .object members => (members.map Prod.fst).Nodup ∧ validMembers members

def validItems : List Value → Prop
  | [] => True
  | value :: rest => valid value ∧ validItems rest

def validMembers : List (String × Value) → Prop
  | [] => True
  | (_, value) :: rest => valid value ∧ validMembers rest

end

mutual

/-- The values are equal up to the order of object members, at any depth. -/
def EqUpToOrder : Value → Value → Prop
  | .null, .null => True
  | .bool a, .bool b => a = b
  | .number a, .number b => a = b
  | .string a, .string b => a = b
  | .array xs, .array ys => EqItems xs ys
  | .object ms, .object ns => ms.length = ns.length ∧ EqMembers ms ns
  | _, _ => False

def EqItems : List Value → List Value → Prop
  | [], [] => True
  | x :: xs, y :: ys => EqUpToOrder x y ∧ EqItems xs ys
  | _, _ => False

/-- Each member of the first has one under its key in the second. -/
def EqMembers : List (String × Value) → List (String × Value) → Prop
  | [], _ => True
  | (key, value) :: rest, ns =>
      (∃ other, (key, other) ∈ ns ∧ EqUpToOrder value other) ∧ EqMembers rest ns

end

/-! ## Items and members as lists -/

section

variable {floatText : UInt64 → List Char} {crates : Crates}

theorem documentItems_eq (items : List Value) :
    documentItems floatText items = items.map (document floatText) := by
  induction items with
  | nil => rfl
  | cons item rest ih => rw [documentItems, ih, List.map_cons]

theorem documentMembers_eq (members : List (String × Value)) :
    documentMembers floatText members =
      members.map fun m => (m.1.toList, document floatText m.2) := by
  induction members with
  | nil => rfl
  | cons m rest ih => rw [documentMembers, ih, List.map_cons]

theorem canonicalizeItems_eq (items : List Value) :
    canonicalizeItems crates items = items.map (canonicalize crates) := by
  induction items with
  | nil => rfl
  | cons item rest ih => rw [canonicalizeItems, ih, List.map_cons]

theorem canonicalizeMembers_eq (members : List (String × Value)) :
    canonicalizeMembers crates members = members.map fun m => (m.1, canonicalize crates m.2) := by
  induction members with
  | nil => rfl
  | cons m rest ih => rw [canonicalizeMembers, ih, List.map_cons]

theorem validItems_iff (items : List Value) : validItems items ↔ ∀ v ∈ items, valid v := by
  induction items with
  | nil => simp [validItems]
  | cons item rest ih => rw [validItems, ih, List.forall_mem_cons]

theorem validMembers_iff (members : List (String × Value)) :
    validMembers members ↔ ∀ m ∈ members, valid m.2 := by
  induction members with
  | nil => simp [validMembers]
  | cons m rest ih => rw [validMembers, ih, List.forall_mem_cons]

theorem eqItems_iff (xs ys : List Value) : EqItems xs ys ↔ List.Forall₂ EqUpToOrder xs ys := by
  induction xs generalizing ys with
  | nil => cases ys <;> simp [EqItems]
  | cons x xs ih => cases ys <;> simp [EqItems, ih]

theorem eqMembers_iff (ms ns : List (String × Value)) :
    EqMembers ms ns ↔ ∀ m ∈ ms, ∃ other, (m.1, other) ∈ ns ∧ EqUpToOrder m.2 other := by
  induction ms with
  | nil => simp [EqMembers]
  | cons m rest ih => rw [EqMembers, ih, List.forall_mem_cons]

end

/-! ## The text determines the value -/

section

variable {floatText : UInt64 → List Char}

theorem isDigit_of_mem_digits {n : Nat} {c : Char} (h : c ∈ Nat.toDigits 10 n) :
    c.isDigit = true :=
  Nat.isDigit_of_mem_toDigits (by decide) (by decide) h

theorem integerText_chars {n : Int} {c : Char} (h : c ∈ integerText n) :
    c.isDigit = true ∨ c = '-' := by
  unfold integerText at h
  split at h
  · rcases List.mem_cons.mp h with rfl | hdigit
    · exact .inr rfl
    · exact .inl (isDigit_of_mem_digits hdigit)
  · exact .inl (isDigit_of_mem_digits h)

theorem allNumeric_integerText (n : Int) : AllNumeric (integerText n) := by
  intro c hc
  rcases integerText_chars hc with hdigit | rfl
  · exact .inl hdigit
  · exact .inr List.mem_cons_self

theorem toDigits_injective {a b : Nat} (h : Nat.toDigits 10 a = Nat.toDigits 10 b) : a = b := by
  have hvalue := congrArg (fun digits => Nat.ofDigitChars 10 digits 0) h
  simpa using hvalue

/-- The digits of a number do not start with a sign. -/
theorem toDigits_ne_neg {n : Nat} {rest : List Char} : Nat.toDigits 10 n ≠ '-' :: rest := by
  intro h
  have hdigit := isDigit_of_mem_digits (n := n) (c := '-') (by rw [h]; exact List.mem_cons_self)
  exact absurd hdigit (by decide)

theorem integerText_injective {a b : Int} (h : integerText a = integerText b) : a = b := by
  unfold integerText at h
  split at h
  · split at h
    · have habs := toDigits_injective (List.tail_eq_of_cons_eq h)
      omega
    · exact absurd h.symm toDigits_ne_neg
  · split at h
    · exact absurd h toDigits_ne_neg
    · have habs := toDigits_injective h
      omega

theorem allNumeric_numberText (hfloat : FloatText floatText) {n : Number}
    (hn : numberValid n = true) : AllNumeric (numberText floatText n) := by
  cases n with
  | posInt n => exact allNumeric_integerText _
  | negInt n => exact allNumeric_integerText _
  | float bits => exact hfloat.chars bits hn

theorem integerText_ne_float (hfloat : FloatText floatText) {n : Int} {bits : UInt64}
    (hbits : isFinite bits = true) : integerText n ≠ floatText bits := by
  intro h
  rcases hfloat.marked bits hbits with hmark | hmark <;>
    · rw [← h] at hmark
      exact absurd (integerText_chars hmark) (by decide)

theorem numberText_injective (hfloat : FloatText floatText) {a b : Number} (ha : numberValid a = true)
    (hb : numberValid b = true) (h : numberText floatText a = numberText floatText b) : a = b := by
  cases a with
  | posInt n =>
    cases b with
    | posInt m =>
      have heq : (n.toNat : Int) = m.toNat := integerText_injective h
      exact congrArg _ (UInt64.toNat_inj.mp (Int.ofNat.inj heq))
    | negInt m =>
      have heq : (n.toNat : Int) = m.toInt := integerText_injective h
      have hneg : m.toInt < 0 := of_decide_eq_true hb
      omega
    | float bits => exact absurd h (integerText_ne_float hfloat hb)
  | negInt n =>
    have hneg : n.toInt < 0 := of_decide_eq_true ha
    cases b with
    | posInt m =>
      have heq : n.toInt = (m.toNat : Int) := integerText_injective h
      omega
    | negInt m => exact congrArg _ (Int64.toInt_inj.mp (integerText_injective h))
    | float bits => exact absurd h (integerText_ne_float hfloat hb)
  | float bits =>
    cases b with
    | posInt m => exact absurd h.symm (integerText_ne_float hfloat ha)
    | negInt m => exact absurd h.symm (integerText_ne_float hfloat ha)
    | float other => exact congrArg _ (hfloat.injective bits other ha hb h)

/-- The text of a number is not a word. -/
theorem numberText_ne_word (hfloat : FloatText floatText) {n : Number} (hn : numberValid n = true)
    {c : Char} {rest : List Char} (hc : ¬ IsNumeric c) : numberText floatText n ≠ c :: rest := by
  intro h
  exact hc (allNumeric_numberText hfloat hn c (by rw [h]; exact List.mem_cons_self))

theorem not_isNumeric_n : ¬ IsNumeric 'n' := by unfold IsNumeric; decide

theorem not_isNumeric_t : ¬ IsNumeric 't' := by unfold IsNumeric; decide

theorem not_isNumeric_f : ¬ IsNumeric 'f' := by unfold IsNumeric; decide

theorem numberText_ne_null (hfloat : FloatText floatText) {n : Number} (hn : numberValid n = true) :
    numberText floatText n ≠ nullText :=
  numberText_ne_word hfloat hn not_isNumeric_n

theorem numberText_ne_bool (hfloat : FloatText floatText) {n : Number} (hn : numberValid n = true)
    (b : Bool) : numberText floatText n ≠ boolText b := by
  cases b with
  | true => exact numberText_ne_word hfloat hn not_isNumeric_t
  | false => exact numberText_ne_word hfloat hn not_isNumeric_f

theorem isPunctuation_of_isNumeric {c : Char} (h : IsNumeric c) :
    JsonText.isPunctuation c = false := by
  cases hc : JsonText.isPunctuation c with
  | false => rfl
  | true =>
    simp only [JsonText.isPunctuation, Bool.or_eq_true, beq_iff_eq] at hc
    rcases hc with (((((rfl | rfl) | rfl) | rfl) | rfl) | rfl) | rfl <;>
      · unfold IsNumeric at h
        exact absurd h (by decide)

theorem isAtom_of_allNumeric {text : List Char} (hne : text ≠ []) (h : AllNumeric text) :
    JsonText.IsAtom text :=
  ⟨hne, fun c hc => isPunctuation_of_isNumeric (h c hc)⟩

theorem integerText_ne_nil (n : Int) : integerText n ≠ [] := by
  unfold integerText
  split
  · exact List.cons_ne_nil _ _
  · exact Nat.toDigits_ne_nil

theorem numberText_ne_nil (hfloat : FloatText floatText) {n : Number}
    (hn : numberValid n = true) : numberText floatText n ≠ [] := by
  cases n with
  | posInt n => exact integerText_ne_nil _
  | negInt n => exact integerText_ne_nil _
  | float bits =>
    intro h
    rcases hfloat.marked bits hn with hmark | hmark <;>
      · rw [numberText] at h
        rw [h] at hmark
        cases hmark

theorem isAtom_numberText (hfloat : FloatText floatText) {n : Number}
    (hn : numberValid n = true) : JsonText.IsAtom (numberText floatText n) :=
  isAtom_of_allNumeric (numberText_ne_nil hfloat hn) (allNumeric_numberText hfloat hn)

theorem wellFormedItems_iff (docs : List JsonText.Doc) :
    JsonText.WellFormedItems docs ↔ ∀ d ∈ docs, JsonText.WellFormed d := by
  induction docs with
  | nil => simp [JsonText.WellFormedItems]
  | cons d rest ih => rw [JsonText.WellFormedItems, ih, List.forall_mem_cons]

theorem wellFormedMembers_iff (docs : List (List Char × JsonText.Doc)) :
    JsonText.WellFormedMembers docs ↔ ∀ d ∈ docs, JsonText.WellFormed d.2 := by
  induction docs with
  | nil => simp [JsonText.WellFormedMembers]
  | cons d rest ih => rw [JsonText.WellFormedMembers, ih, List.forall_mem_cons]

theorem isAtom_nullText : JsonText.IsAtom nullText :=
  JsonText.isAtom_of_all (List.cons_ne_nil _ _) (by decide)

theorem isAtom_boolText (b : Bool) : JsonText.IsAtom (boolText b) := by
  cases b <;> exact JsonText.isAtom_of_all (List.cons_ne_nil _ _) (by decide)

theorem wellFormed_document (hfloat : FloatText floatText) (v : Value) :
    valid v → JsonText.WellFormed (document floatText v) := by
  induction v using Value.induction with
  | null => exact fun _ => isAtom_nullText
  | bool b => exact fun _ => isAtom_boolText b
  | number n => exact fun hn => isAtom_numberText hfloat hn
  | string s => exact fun _ => trivial
  | array items ih =>
    intro hvalid
    rw [valid, validItems_iff] at hvalid
    rw [document, JsonText.WellFormed, documentItems_eq, wellFormedItems_iff]
    exact List.forall_mem_map.mpr fun v hv => ih v hv (hvalid v hv)
  | object members ih =>
    intro hvalid
    rw [valid, validMembers_iff] at hvalid
    rw [document, JsonText.WellFormed, documentMembers_eq, wellFormedMembers_iff]
    exact List.forall_mem_map.mpr fun m hm => ih m hm (hvalid.2 m hm)

/-- Lists are equal when a function that separates their elements maps them to the
    same list. -/
theorem map_injective_on {α γ : Type} {f : α → γ} {P : α → Prop} {xs : List α}
    (hf : ∀ x ∈ xs, ∀ y, P y → f x = f y → x = y) {ys : List α} (hys : ∀ y ∈ ys, P y)
    (h : xs.map f = ys.map f) : xs = ys := by
  induction xs generalizing ys with
  | nil => exact (List.map_eq_nil_iff.mp h.symm).symm
  | cons x xs ih =>
    cases ys with
    | nil => cases h
    | cons y ys =>
      obtain ⟨hhead, htail⟩ := List.cons_eq_cons.mp h
      obtain rfl := hf x List.mem_cons_self y (hys y List.mem_cons_self) hhead
      rw [ih (fun a ha => hf a (List.mem_cons_of_mem _ ha))
        (fun b hb => hys b (List.mem_cons_of_mem _ hb)) htail]

theorem document_injective (hfloat : FloatText floatText) (v : Value) : valid v →
    ∀ w, valid w → document floatText v = document floatText w → v = w := by
  induction v using Value.induction with
  | null =>
    intro _ w hw h
    cases w with
    | null => rfl
    | bool b => cases b <;> cases h
    | number n => exact absurd (JsonText.Doc.atom.inj h).symm (numberText_ne_null hfloat hw)
    | string | array | object => cases h
  | bool b =>
    intro _ w hw h
    cases w with
    | null => cases b <;> cases h
    | bool b' => cases b <;> cases b' <;> first | rfl | cases h
    | number n => exact absurd (JsonText.Doc.atom.inj h).symm (numberText_ne_bool hfloat hw b)
    | string | array | object => cases h
  | number n =>
    intro hn w hw h
    cases w with
    | null => exact absurd (JsonText.Doc.atom.inj h) (numberText_ne_null hfloat hn)
    | bool b => exact absurd (JsonText.Doc.atom.inj h) (numberText_ne_bool hfloat hn b)
    | number m => exact congrArg _ (numberText_injective hfloat hn hw (JsonText.Doc.atom.inj h))
    | string | array | object => cases h
  | string s =>
    intro _ w _ h
    cases w with
    | string t => exact congrArg _ (String.toList_inj.mp (JsonText.Doc.string.inj h))
    | null | bool | number | array | object => cases h
  | array items ih =>
    intro hv w hw h
    cases w with
    | array others =>
      rw [valid, validItems_iff] at hv hw
      have hdocs := JsonText.Doc.array.inj h
      rw [documentItems_eq, documentItems_eq] at hdocs
      exact congrArg _ (map_injective_on (fun x hx y hy => ih x hx (hv x hx) y hy) hw hdocs)
    | null | bool | number | string | object => cases h
  | object members ih =>
    intro hv w hw h
    cases w with
    | object others =>
      rw [valid, validMembers_iff] at hv hw
      have hdocs := JsonText.Doc.object.inj h
      rw [documentMembers_eq, documentMembers_eq] at hdocs
      refine congrArg _ (map_injective_on (P := fun m => valid m.2) ?_ hw.2 hdocs)
      intro m hm n hn hmn
      obtain ⟨hkey, hvalue⟩ := Prod.mk.inj hmn
      exact Prod.ext (String.toList_inj.mp hkey) (ih m hm (hv.2 m hm) n.2 hn hvalue)
    | null | bool | number | string | array => cases h

/-- Values with the same text are the same. -/
theorem jsonText_injective (hfloat : FloatText floatText) {v w : Value} (hv : valid v)
    (hw : valid w) (h : jsonText floatText v = jsonText floatText w) : v = w :=
  document_injective hfloat v hv w hw
    (JsonText.render_injective (wellFormed_document hfloat v hv) (wellFormed_document hfloat w hw)
      (String.ofList_inj.mp h))

end

/-! ## Canonicalisation -/

section

variable {order : MapOrder} {floatText : UInt64 → List Char} {crates : Crates}

theorem collect_perm {β : Type} (order : MapOrder) {members : List (String × β)}
    (h : (KeyedList.Keys members).Nodup) : (order.collect members).Perm members := by
  cases order with
  | byKey => exact KeyedList.collectByKey_perm h
  | byInsertion => exact .of_eq (KeyedList.collectLast_eq h)

theorem nodup_canonicalizeMembers (crates : Crates) {members : List (String × Value)}
    (h : (members.map Prod.fst).Nodup) :
    (KeyedList.Keys (canonicalizeMembers crates members)).Nodup := by
  rw [canonicalizeMembers_eq, KeyedList.Keys, List.map_map]
  exact h

theorem valid_canonicalize (hcollect : crates.collect = order.collect) (v : Value) :
    valid v → valid (canonicalize crates v) := by
  induction v using Value.induction with
  | null | bool b | string s => exact fun _ => trivial
  | number n => exact id
  | array items ih =>
    intro hvalid
    rw [valid, validItems_iff] at hvalid
    rw [canonicalize, valid, validItems_iff, canonicalizeItems_eq]
    exact List.forall_mem_map.mpr fun v hv => ih v hv (hvalid v hv)
  | object members ih =>
    intro hvalid
    rw [valid, validMembers_iff] at hvalid
    have hkeys := nodup_canonicalizeMembers crates hvalid.1
    have hperm := collect_perm order hkeys
    rw [canonicalize, hcollect, valid, validMembers_iff]
    refine ⟨(hperm.map Prod.fst).nodup_iff.mpr hkeys, fun m hm => ?_⟩
    have hm' := hperm.subset hm
    rw [canonicalizeMembers_eq] at hm'
    obtain ⟨n, hn, rfl⟩ := List.mem_map.mp hm'
    exact ih n hn (hvalid.2 n hn)

/-- An insertion-ordered map is given back as it was. -/
theorem canonicalize_byInsertion (hcollect : crates.collect = MapOrder.byInsertion.collect)
    (v : Value) : valid v → canonicalize crates v = v := by
  induction v using Value.induction with
  | null | bool b | string s | number n => exact fun _ => rfl
  | array items ih =>
    intro hvalid
    rw [valid, validItems_iff] at hvalid
    rw [canonicalize, canonicalizeItems_eq]
    refine congrArg _ ((List.map_congr_left fun v hv => ih v hv (hvalid v hv)).trans ?_)
    exact List.map_id _
  | object members ih =>
    intro hvalid
    rw [valid, validMembers_iff] at hvalid
    have hsame : canonicalizeMembers crates members = members := by
      rw [canonicalizeMembers_eq]
      refine (List.map_congr_left fun m hm => ?_).trans (List.map_id _)
      rw [ih m hm (hvalid.2 m hm)]
      rfl
    rw [canonicalize, hcollect, hsame]
    exact congrArg _ (KeyedList.collectLast_eq hvalid.1)

theorem map_eq_iff_forall₂ {α γ : Type} {f : α → γ} {R : α → α → Prop} {xs ys : List α}
    (hR : ∀ x ∈ xs, ∀ y ∈ ys, (f x = f y ↔ R x y)) :
    xs.map f = ys.map f ↔ List.Forall₂ R xs ys := by
  induction xs generalizing ys with
  | nil => cases ys <;> simp
  | cons x xs ih =>
    cases ys with
    | nil => simp
    | cons y ys =>
      have hrest := ih fun a ha b hb => hR a (List.mem_cons_of_mem _ ha) b (List.mem_cons_of_mem _ hb)
      rw [List.map_cons, List.map_cons, List.cons_eq_cons, List.forall₂_cons, hrest,
        hR x List.mem_cons_self y List.mem_cons_self]

/-- Over an ordered map the canonical forms of two values are the same exactly when
    they are equal up to the order of object members. -/
theorem canonicalize_byKey_iff (hcollect : crates.collect = MapOrder.byKey.collect) (v : Value) :
    valid v → ∀ w, valid w →
      (canonicalize crates v = canonicalize crates w ↔ EqUpToOrder v w) := by
  induction v using Value.induction with
  | null | bool b | string s | number n =>
    intro _ w _
    cases w <;> simp [canonicalize, EqUpToOrder]
  | array items ih =>
    intro hv w hw
    cases w with
    | array others =>
      rw [valid, validItems_iff] at hv hw
      rw [canonicalize, canonicalize, canonicalizeItems_eq, canonicalizeItems_eq, EqUpToOrder,
        eqItems_iff, Value.array.injEq]
      exact map_eq_iff_forall₂ fun x hx y hy => ih x hx (hv x hx) y (hw y hy)
    | null | bool | number | string | object => simp [canonicalize, EqUpToOrder]
  | object members ih =>
    intro hv w hw
    cases w with
    | object others =>
      rw [valid, validMembers_iff] at hv hw
      have hkeys := nodup_canonicalizeMembers crates hv.1
      have hkeys' := nodup_canonicalizeMembers crates hw.1
      rw [canonicalize, canonicalize, hcollect, EqUpToOrder, eqMembers_iff, Value.object.injEq,
        MapOrder.collect, MapOrder.collect, KeyedList.collectByKey_eq_iff hkeys hkeys',
        KeyedList.perm_iff hkeys, canonicalizeMembers_eq, canonicalizeMembers_eq, List.length_map,
        List.length_map, List.forall_mem_map]
      refine and_congr_right fun _ => forall₂_congr fun m hm => ?_
      constructor
      · intro hmem
        obtain ⟨n, hn, hnm⟩ := List.mem_map.mp hmem
        obtain ⟨hkey, hvalue⟩ := Prod.mk.inj hnm
        exact ⟨n.2, hkey ▸ hn, (ih m hm (hv.2 m hm) n.2 (hw.2 n hn)).mp hvalue.symm⟩
      · rintro ⟨other, hother, heq⟩
        refine List.mem_map.mpr ⟨(m.1, other), hother, ?_⟩
        rw [(ih m hm (hv.2 m hm) other (hw.2 _ hother)).mpr heq]
    | null | bool | number | string | array => simp [canonicalize, EqUpToOrder]

end

/-! ## The hash -/

/-- The bytes of the text of a value. -/
def jsonBytes (floatText : UInt64 → List Char) (value : Value) : List UInt8 :=
  (jsonText floatText value).toUTF8.data.toList

theorem hexDigit_inj {m n : Nat} (hm : m < 16) (hn : n < 16) (h : hexDigit m = hexDigit n) :
    m = n := by
  have hvalue : JsonText.hexValue (JsonText.hexDigit m) = JsonText.hexValue (JsonText.hexDigit n) :=
    congrArg JsonText.hexValue h
  rwa [JsonText.hexValue_hexDigit hm, JsonText.hexValue_hexDigit hn] at hvalue

theorem mem_hexEncode {bytes : List UInt8} {c : Char} (h : c ∈ (hexEncode bytes).toList) :
    ∃ n < 16, c = hexDigit n := by
  rw [hexEncode, String.toList_ofList] at h
  obtain ⟨b, -, hdigit⟩ := List.mem_flatMap.mp h
  have hb := b.toNat_lt
  rcases List.mem_cons.mp hdigit with rfl | hdigit
  · exact ⟨b.toNat / 16, by omega, rfl⟩
  · exact ⟨b.toNat % 16, by omega, List.mem_singleton.mp hdigit⟩

theorem hexEncode_injective {xs ys : List UInt8} (h : hexEncode xs = hexEncode ys) : xs = ys := by
  have hchars := String.ofList_inj.mp h
  clear h
  induction xs generalizing ys with
  | nil =>
    cases ys with
    | nil => rfl
    | cons y ys => cases hchars
  | cons x xs ih =>
    cases ys with
    | nil => cases hchars
    | cons y ys =>
      simp only [List.flatMap_cons, List.cons_append, List.nil_append] at hchars
      obtain ⟨hhigh, hrest⟩ := List.cons_eq_cons.mp hchars
      obtain ⟨hlow, htail⟩ := List.cons_eq_cons.mp hrest
      have hx := x.toNat_lt
      have hy := y.toNat_lt
      have hhigh' : x.toNat / 16 = y.toNat / 16 := hexDigit_inj (by omega) (by omega) hhigh
      have hlow' : x.toNat % 16 = y.toNat % 16 := hexDigit_inj (by omega) (by omega) hlow
      obtain rfl : x = y := UInt8.toNat_inj.mp (by omega)
      rw [ih htail]

section

variable {order : MapOrder} {floatText : UInt64 → List Char} {crates : Crates} {a b : Value}

theorem toVec_eq (h : SerdeJson order floatText crates) (v : Value) :
    crates.toVec v = some (jsonBytes floatText v) := by
  rw [Crates.toVec, h.toText, Option.map_some, jsonBytes]

theorem jsonBytes_injective (hfloat : FloatText floatText) (ha : valid a) (hb : valid b)
    (h : jsonBytes floatText a = jsonBytes floatText b) : a = b := by
  refine jsonText_injective hfloat ha hb (String.toByteArray_inj.mp ?_)
  exact ByteArray.ext (Array.toList_inj.mp h)

/-- The hash of an object, as the text of its canonical form gives it. -/
theorem canonicalJsonHash_eq (h : SerdeJson order floatText crates) (hobject : a.isObject = true) :
    canonicalJsonHash crates a =
      .ok ("sha256:" ++ hexEncode (crates.sha256 (jsonBytes floatText (canonicalize crates a)))) := by
  rw [canonicalJsonHash, hobject, toVec_eq h]
  rfl

theorem EqUpToOrder.isObject (h : EqUpToOrder a b) : a.isObject = b.isObject := by
  cases a <;> cases b <;> first | rfl | exact absurd h (by simp [EqUpToOrder])

theorem canonicalJsonHash_of_not_isObject (hobject : a.isObject = false) :
    canonicalJsonHash crates a = .error (.invalidField "arguments") := by
  rw [canonicalJsonHash, hobject]
  rfl

theorem EqUpToOrder.refl (crates : Crates) (ha : valid a) : EqUpToOrder a a := by
  have hcollect : ({ crates with collect := MapOrder.byKey.collect } : Crates).collect =
      MapOrder.byKey.collect := rfl
  exact (canonicalize_byKey_iff hcollect a ha a ha).mp rfl

/-- What is asked of the hash of two values. -/
structure OrderFree (crates : Crates) (a b : Value) : Prop where
  sameHash : EqUpToOrder a b → canonicalJsonHash crates a = canonicalJsonHash crates b
  otherBytes : ¬ EqUpToOrder a b →
    crates.toVec (canonicalize crates a) ≠ crates.toVec (canonicalize crates b)

/-- The map lists members by key; or no hash is taken; or values that are equal up to
    the order of members are equal, or SHA-256 collides on their texts. -/
def HashesAlike (order : MapOrder) (floatText : UInt64 → List Char) (crates : Crates)
    (a b : Value) : Prop :=
  order = .byKey ∨ a.isObject = false ∨ (EqUpToOrder a b →
    a = b ∨ crates.sha256 (jsonBytes floatText a) = crates.sha256 (jsonBytes floatText b))

/-- Values that differ otherwise have different bytes, over either map. -/
theorem otherBytes (h : SerdeJson order floatText crates) (ha : valid a) (hb : valid b)
    (hne : ¬ EqUpToOrder a b) :
    crates.toVec (canonicalize crates a) ≠ crates.toVec (canonicalize crates b) := by
  rw [toVec_eq h, toVec_eq h]
  intro hbytes
  have hcanon : canonicalize crates a = canonicalize crates b :=
    jsonBytes_injective h.float (valid_canonicalize h.collect a ha)
      (valid_canonicalize h.collect b hb) (Option.some.inj hbytes)
  cases order with
  | byKey => exact hne ((canonicalize_byKey_iff h.collect a ha b hb).mp hcanon)
  | byInsertion =>
    rw [canonicalize_byInsertion h.collect a ha, canonicalize_byInsertion h.collect b hb] at hcanon
    exact hne (hcanon ▸ EqUpToOrder.refl crates ha)

theorem order_free_iff (h : SerdeJson order floatText crates) (ha : valid a) (hb : valid b) :
    OrderFree crates a b ↔ HashesAlike order floatText crates a b := by
  constructor
  · intro hfree
    cases order with
    | byKey => exact .inl rfl
    | byInsertion =>
      cases hobject : a.isObject with
      | false => exact .inr (.inl hobject)
      | true =>
        refine .inr (.inr fun heq => .inr ?_)
        have hhash := hfree.sameHash heq
        rw [canonicalJsonHash_eq h hobject, canonicalJsonHash_eq h (heq.isObject ▸ hobject),
          canonicalize_byInsertion h.collect a ha, canonicalize_byInsertion h.collect b hb] at hhash
        exact hexEncode_injective (String.append_right_inj _ |>.mp (Except.ok.inj hhash))
  · intro hcond
    refine ⟨fun heq => ?_, otherBytes h ha hb⟩
    cases hobject : a.isObject with
    | false =>
      rw [canonicalJsonHash_of_not_isObject hobject,
        canonicalJsonHash_of_not_isObject (heq.isObject ▸ hobject)]
    | true =>
      rw [canonicalJsonHash_eq h hobject, canonicalJsonHash_eq h (heq.isObject ▸ hobject)]
      cases order with
      | byKey => rw [(canonicalize_byKey_iff h.collect a ha b hb).mpr heq]
      | byInsertion =>
        rw [canonicalize_byInsertion h.collect a ha, canonicalize_byInsertion h.collect b hb]
        rcases hcond with hkey | hnone | halike
        · cases hkey
        · cases hobject.symm.trans hnone
        · rcases halike heq with rfl | hcollide
          · rfl
          · rw [hcollide]

end

/-! ## Two texts of one object -/

def sampleFloatText (bits : UInt64) : List Char :=
  Nat.toDigits 10 bits.toNat ++ ['.', '0']

theorem sampleFloatText_floatText : FloatText sampleFloatText where
  chars := by
    intro bits _ c hc
    rcases List.mem_append.mp hc with hdigit | hmark
    · exact .inl (isDigit_of_mem_digits hdigit)
    · rcases List.mem_cons.mp hmark with rfl | hzero
      · exact .inr (by simp)
      · exact .inl (List.mem_singleton.mp hzero ▸ rfl)
  marked := fun bits _ => .inl (List.mem_append_right _ List.mem_cons_self)
  injective := by
    intro a b _ _ h
    exact UInt64.toNat_inj.mp (toDigits_injective (List.append_cancel_right h))

/-- The text of the object with `b` first. -/
def firstBytes : List UInt8 := [123, 34, 98, 34, 58, 50, 44, 34, 97, 34, 58, 49, 125]

/-- The text of the object with `a` first. -/
def secondBytes : List UInt8 := [123, 34, 97, 34, 58, 49, 44, 34, 98, 34, 58, 50, 125]

/-- SHA-256 on the two texts. -/
def sampleDigest (bytes : List UInt8) : List UInt8 :=
  if bytes = firstBytes then
    [63, 183, 84, 83, 34, 92, 115, 42, 118, 183, 137, 158, 162, 9, 109, 218,
      20, 85, 24, 156, 137, 129, 114, 57, 115, 33, 130, 247, 63, 229, 160, 159]
  else if bytes = secondBytes then
    [67, 37, 140, 255, 120, 63, 231, 3, 109, 138, 67, 3, 63, 131, 10, 223,
      198, 14, 192, 55, 56, 36, 115, 84, 138, 199, 66, 184, 136, 41, 39, 119]
  else []

def sampleCrates (order : MapOrder) : Crates :=
  { toText := fun value => some (jsonText sampleFloatText value)
    collect := order.collect
    sha256 := sampleDigest
    hmacSha256 := fun _ _ => []
    parsesUuid := fun _ => false
    joins := fun _ => true
    validateJsonSchema := fun _ => .ok () }

theorem sampleCrates_serdeJson (order : MapOrder) :
    SerdeJson order sampleFloatText (sampleCrates order) :=
  ⟨sampleFloatText_floatText, fun _ => rfl, rfl⟩

def firstObject : Value :=
  .object [("b", .number (.posInt 2)), ("a", .number (.posInt 1))]

def secondObject : Value :=
  .object [("a", .number (.posInt 1)), ("b", .number (.posInt 2))]

theorem valid_firstObject : valid firstObject := by
  simp [firstObject, valid, validMembers, numberValid]

theorem valid_secondObject : valid secondObject := by
  simp [secondObject, valid, validMembers, numberValid]

/-- Over the tree map the order of the members does not matter. -/
theorem order_free_iff_tree : OrderFree (sampleCrates .byKey) firstObject secondObject :=
  (order_free_iff (sampleCrates_serdeJson .byKey) valid_firstObject valid_secondObject).mpr
    (.inl rfl)

/-- Over the insertion-ordered map the two listings of one object have two hashes. -/
theorem hash_of_insertion_order :
    EqUpToOrder firstObject secondObject ∧
      canonicalJsonHash (sampleCrates .byInsertion) firstObject ≠
        canonicalJsonHash (sampleCrates .byInsertion) secondObject := by
  constructor
  · have hcollect := (sampleCrates_serdeJson .byKey).collect
    exact (canonicalize_byKey_iff hcollect _ valid_firstObject _ valid_secondObject).mp rfl
  · have hserde := sampleCrates_serdeJson .byInsertion
    have hobject : firstObject.isObject = true := rfl
    have hobject' : secondObject.isObject = true := rfl
    rw [canonicalJsonHash_eq hserde hobject, canonicalJsonHash_eq hserde hobject',
      canonicalize_byInsertion hserde.collect _ valid_firstObject,
      canonicalize_byInsertion hserde.collect _ valid_secondObject]
    intro h
    have hdigest := hexEncode_injective (String.append_right_inj _ |>.mp (Except.ok.inj h))
    have hfirst : jsonBytes sampleFloatText firstObject = firstBytes := by decide
    have hsecond : jsonBytes sampleFloatText secondObject = secondBytes := by decide
    rw [hfirst, hsecond] at hdigest
    exact absurd hdigest (by decide)

end AiPlatform.Capability
