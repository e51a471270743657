/-
  AiPlatform.Capability.PythonCanonical

  The gateway's encoder (`capability_leases.py`, `canonical_json`) next to the one
  of the contract crate.

  Both write the same JSON value, the gateway from the objects of Python and the
  crate from the value its parser made of the same text.  They differ where the
  two languages hold a number differently, and where the crate's map does not
  sort.
-/

import AiPlatform.Capability.CanonicalJson

namespace AiPlatform.Capability

open AiPlatform.Json AiPlatform.Checks ShortestFloat

/-- A JSON value as Python holds it.  The keys of a dict are strings and its items
    stand in the order they were inserted. -/
inductive PyValue where
  | none
  | bool (b : Bool)
  | int (n : Int)
  | float (bits : UInt64)
  | str (s : String)
  | list (items : List PyValue)
  | dict (items : List (String × PyValue))
  deriving Inhabited

structure LeaseError where
  message : String
  deriving DecidableEq, Repr

namespace PyValue

mutual

/-- What `json.dumps` writes with `sort_keys` and without blanks.  Without
    `ensure_ascii` it escapes the characters that `serde_json` does. -/
def document : PyValue → JsonText.Doc
  | .none => .atom nullText
  | .bool b => .atom (boolText b)
  | .int n => .atom (integerText n)
  | .float bits => .atom (ShortestFloat.repr bits)
  | .str s => .string s.toList
  | .list items => .array (documentItems items)
  | .dict items =>
      .object ((KeyedList.sortByKey (documentMembers items)).map fun m => (m.1.toList, m.2))

def documentItems : List PyValue → List JsonText.Doc
  | [] => []
  | item :: rest => document item :: documentItems rest

def documentMembers : List (String × PyValue) → List (String × JsonText.Doc)
  | [] => []
  | (key, value) :: rest => (key, document value) :: documentMembers rest

end

mutual

/-- No float is infinite or `nan`; `allow_nan=False` refuses these. -/
def allFinite : PyValue → Bool
  | .none | .bool _ | .int _ | .str _ => true
  | .float bits => isFinite bits
  | .list items => allFiniteItems items
  | .dict items => allFiniteMembers items

def allFiniteItems : List PyValue → Bool
  | [] => true
  | item :: rest => allFinite item && allFiniteItems rest

def allFiniteMembers : List (String × PyValue) → Bool
  | [] => true
  | (_, value) :: rest => allFinite value && allFiniteMembers rest

end

end PyValue

def canonicalJson (value : PyValue) : Except LeaseError (List UInt8) :=
  if value.allFinite then
    .ok (String.ofList (JsonText.render value.document)).toUTF8.data.toList
  else .error ⟨"invalid_json"⟩

/-! ## The same value on the other side -/

/-- The integers that `serde_json` keeps as integers. -/
def inRange (n : Int) : Bool :=
  -2 ^ 63 ≤ n && n < 2 ^ 64

/-- The number the parser makes of an integer; `nearest` gives the float for one
    that is too long. -/
def receivedNumber (nearest : Int → UInt64) (n : Int) : Number :=
  if 0 ≤ n ∧ n < 2 ^ 64 then .posInt (UInt64.ofNat n.toNat)
  else if -2 ^ 63 ≤ n ∧ n < 0 then .negInt (Int64.ofInt n)
  else .float (nearest n)

namespace PyValue

mutual

/-- The value the parser makes of the same JSON. -/
def received (order : MapOrder) (nearest : Int → UInt64) : PyValue → Value
  | .none => .null
  | .bool b => .bool b
  | .int n => .number (receivedNumber nearest n)
  | .float bits => .number (.float bits)
  | .str s => .string s
  | .list items => .array (receivedItems order nearest items)
  | .dict items => .object (order.collect (receivedMembers order nearest items))

def receivedItems (order : MapOrder) (nearest : Int → UInt64) : List PyValue → List Value
  | [] => []
  | item :: rest => received order nearest item :: receivedItems order nearest rest

def receivedMembers (order : MapOrder) (nearest : Int → UInt64) :
    List (String × PyValue) → List (String × Value)
  | [] => []
  | (key, value) :: rest =>
      (key, received order nearest value) :: receivedMembers order nearest rest

end

mutual

/-- Both sides take the value: no dict has a key twice, every float is finite, and an
    integer that is too long still has a finite float. -/
def Accepted (nearest : Int → UInt64) : PyValue → Prop
  | .none | .bool _ | .str _ => True
  | .int n => inRange n = true ∨ isFinite (nearest n) = true
  | .float bits => isFinite bits = true
  | .list items => AcceptedItems nearest items
  | .dict items => (KeyedList.Keys items).Nodup ∧ AcceptedMembers nearest items

def AcceptedItems (nearest : Int → UInt64) : List PyValue → Prop
  | [] => True
  | item :: rest => Accepted nearest item ∧ AcceptedItems nearest rest

def AcceptedMembers (nearest : Int → UInt64) : List (String × PyValue) → Prop
  | [] => True
  | (_, value) :: rest => Accepted nearest value ∧ AcceptedMembers nearest rest

end

mutual

/-- Every integer fits in 64 bits, every float is one that both sides print alike,
    and every dict lists its keys in increasing order unless the map sorts. -/
def Alike (order : MapOrder) (floatText : UInt64 → List Char) : PyValue → Prop
  | .none | .bool _ | .str _ => True
  | .int n => inRange n = true
  | .float bits => ShortestFloat.repr bits = floatText bits
  | .list items => AlikeItems order floatText items
  | .dict items =>
      (order = .byKey ∨ KeyedList.Sorted items) ∧ AlikeMembers order floatText items

def AlikeItems (order : MapOrder) (floatText : UInt64 → List Char) : List PyValue → Prop
  | [] => True
  | item :: rest => Alike order floatText item ∧ AlikeItems order floatText rest

def AlikeMembers (order : MapOrder) (floatText : UInt64 → List Char) :
    List (String × PyValue) → Prop
  | [] => True
  | (_, value) :: rest => Alike order floatText value ∧ AlikeMembers order floatText rest

end

/-! ## Items and members as lists -/

section

variable {P : PyValue → Prop} (none : P .none) (bool : ∀ b, P (.bool b)) (int : ∀ n, P (.int n))
  (float : ∀ bits, P (.float bits)) (str : ∀ s, P (.str s))
  (list : ∀ items, (∀ v ∈ items, P v) → P (.list items))
  (dict : ∀ items, (∀ m ∈ items, P m.2) → P (.dict items))

include none bool int float str list dict

set_option linter.unusedSectionVars false

mutual

theorem induction : ∀ v, P v
  | .none => none
  | .bool b => bool b
  | .int n => int n
  | .float bits => float bits
  | .str s => str s
  | .list items => list items (inductionItems items)
  | .dict items => dict items (inductionMembers items)

theorem inductionItems : ∀ items : List PyValue, ∀ v ∈ items, P v
  | [] => fun _ h => absurd h List.not_mem_nil
  | item :: rest => List.forall_mem_cons.mpr ⟨induction item, inductionItems rest⟩

theorem inductionMembers : ∀ items : List (String × PyValue), ∀ m ∈ items, P m.2
  | [] => fun _ h => absurd h List.not_mem_nil
  | (_, value) :: rest => List.forall_mem_cons.mpr ⟨induction value, inductionMembers rest⟩

end

end

section

variable {order : MapOrder} {nearest : Int → UInt64} {floatText : UInt64 → List Char}

theorem documentItems_eq (items : List PyValue) : documentItems items = items.map document := by
  induction items with
  | nil => rfl
  | cons item rest ih => rw [documentItems, ih, List.map_cons]

theorem documentMembers_eq (items : List (String × PyValue)) :
    documentMembers items = items.map fun m => (m.1, document m.2) := by
  induction items with
  | nil => rfl
  | cons m rest ih => rw [documentMembers, ih, List.map_cons]

theorem receivedItems_eq (items : List PyValue) :
    receivedItems order nearest items = items.map (received order nearest) := by
  induction items with
  | nil => rfl
  | cons item rest ih => rw [receivedItems, ih, List.map_cons]

theorem receivedMembers_eq (items : List (String × PyValue)) :
    receivedMembers order nearest items = items.map fun m => (m.1, received order nearest m.2) := by
  induction items with
  | nil => rfl
  | cons m rest ih => rw [receivedMembers, ih, List.map_cons]

theorem acceptedItems_iff (items : List PyValue) :
    AcceptedItems nearest items ↔ ∀ v ∈ items, Accepted nearest v := by
  induction items with
  | nil => simp [AcceptedItems]
  | cons item rest ih => rw [AcceptedItems, ih, List.forall_mem_cons]

theorem acceptedMembers_iff (items : List (String × PyValue)) :
    AcceptedMembers nearest items ↔ ∀ m ∈ items, Accepted nearest m.2 := by
  induction items with
  | nil => simp [AcceptedMembers]
  | cons m rest ih => rw [AcceptedMembers, ih, List.forall_mem_cons]

theorem alikeItems_iff (items : List PyValue) :
    AlikeItems order floatText items ↔ ∀ v ∈ items, Alike order floatText v := by
  induction items with
  | nil => simp [AlikeItems]
  | cons item rest ih => rw [AlikeItems, ih, List.forall_mem_cons]

theorem alikeMembers_iff (items : List (String × PyValue)) :
    AlikeMembers order floatText items ↔ ∀ m ∈ items, Alike order floatText m.2 := by
  induction items with
  | nil => simp [AlikeMembers]
  | cons m rest ih => rw [AlikeMembers, ih, List.forall_mem_cons]

/-- For distinct keys, what is written are the items of the ordered map. -/
theorem document_dict {items : List (String × PyValue)} (h : (KeyedList.Keys items).Nodup) :
    document (.dict items) =
      .object ((KeyedList.collectByKey items).map fun m => (m.1.toList, document m.2)) := by
  have hkeys : (KeyedList.Keys (documentMembers items)).Nodup := by
    rw [documentMembers_eq, KeyedList.Keys, List.map_map]
    exact h
  rw [document, KeyedList.sortByKey_eq hkeys, documentMembers_eq, KeyedList.collectByKey_map,
    List.map_map]
  rfl

theorem wellFormed_document (v : PyValue) :
    Accepted nearest v → JsonText.WellFormed (document v) := by
  induction v using PyValue.induction with
  | none => exact fun _ => isAtom_nullText
  | bool b => exact fun _ => isAtom_boolText b
  | int n => exact fun _ => isAtom_of_allNumeric (integerText_ne_nil n) (allNumeric_integerText n)
  | float bits =>
    exact fun _ => isAtom_of_allNumeric (repr_ne_nil bits) (allNumeric_repr bits)
  | str s => exact fun _ => trivial
  | list items ih =>
    intro haccepted
    rw [Accepted, acceptedItems_iff] at haccepted
    rw [document, JsonText.WellFormed, documentItems_eq, wellFormedItems_iff]
    exact List.forall_mem_map.mpr fun v hv => ih v hv (haccepted v hv)
  | dict items ih =>
    intro haccepted
    rw [Accepted, acceptedMembers_iff] at haccepted
    rw [document_dict haccepted.1, JsonText.WellFormed, wellFormedMembers_iff]
    refine List.forall_mem_map.mpr fun m hm => ?_
    have hmem := (KeyedList.collectByKey_perm haccepted.1).subset hm
    exact ih m hmem (haccepted.2 m hmem)

theorem allFinite_of_accepted (v : PyValue) : Accepted nearest v → v.allFinite = true := by
  have hitems : ∀ items : List PyValue, (∀ v ∈ items, v.allFinite = true) →
      allFiniteItems items = true := by
    intro items
    induction items with
    | nil => exact fun _ => rfl
    | cons item rest ih =>
      intro h
      obtain ⟨hitem, hrest⟩ := List.forall_mem_cons.mp h
      rw [allFiniteItems, hitem, ih hrest, Bool.and_self]
  have hmembers : ∀ items : List (String × PyValue), (∀ m ∈ items, m.2.allFinite = true) →
      allFiniteMembers items = true := by
    intro items
    induction items with
    | nil => exact fun _ => rfl
    | cons m rest ih =>
      intro h
      obtain ⟨hm, hrest⟩ := List.forall_mem_cons.mp h
      rw [allFiniteMembers, hm, ih hrest, Bool.and_self]
  induction v using PyValue.induction with
  | none | bool b | int n | str s => exact fun _ => rfl
  | float bits => exact id
  | list items ih =>
    intro h
    rw [Accepted, acceptedItems_iff] at h
    exact hitems items fun v hv => ih v hv (h v hv)
  | dict items ih =>
    intro h
    rw [Accepted, acceptedMembers_iff] at h
    exact hmembers items fun m hm => ih m hm (h.2 m hm)

theorem numberValid_receivedNumber {n : Int}
    (h : inRange n = true ∨ isFinite (nearest n) = true) :
    numberValid (receivedNumber nearest n) = true := by
  unfold receivedNumber
  split
  · rfl
  · split
    · rename_i hneg
      have hrange : (Int64.ofInt n).toInt = n := Int64.toInt_ofInt_of_le hneg.1 (by omega)
      rw [numberValid, hrange]
      exact decide_eq_true hneg.2
    · rcases h with hin | hfinite
      · simp only [inRange, Bool.and_eq_true, decide_eq_true_eq] at hin
        omega
      · exact hfinite

/-- An integer keeps its text exactly when it fits in 64 bits. -/
theorem integerText_received (hfloat : FloatText floatText) {n : Int}
    (h : inRange n = true ∨ isFinite (nearest n) = true) :
    integerText n = numberText floatText (receivedNumber nearest n) ↔ inRange n = true := by
  unfold receivedNumber
  simp only [inRange, Bool.and_eq_true, decide_eq_true_eq] at h ⊢
  split
  · rename_i hpos
    have hn : ((UInt64.ofNat n.toNat).toNat : Int) = n := by
      have hsize : UInt64.size = 2 ^ 64 := rfl
      have hlt : n.toNat < UInt64.size := by omega
      rw [UInt64.toNat_ofNat_of_lt' hlt]
      omega
    rw [numberText, hn]
    exact ⟨fun _ => by omega, fun _ => rfl⟩
  · split
    · rename_i hneg
      rw [numberText, Int64.toInt_ofInt_of_le hneg.1 (by omega)]
      exact ⟨fun _ => by omega, fun _ => rfl⟩
    · have hout : ¬ (-2 ^ 63 ≤ n ∧ n < 2 ^ 64) := by omega
      have hfinite : isFinite (nearest n) = true := h.resolve_left hout
      exact ⟨fun heq => absurd heq (integerText_ne_float hfloat hfinite), fun hin => absurd hin hout⟩

theorem valid_received (v : PyValue) : Accepted nearest v → valid (received order nearest v) := by
  induction v using PyValue.induction with
  | none | bool b | str s => exact fun _ => trivial
  | int n => exact fun h => numberValid_receivedNumber h
  | float bits => exact id
  | list items ih =>
    intro h
    rw [Accepted, acceptedItems_iff] at h
    rw [received, valid, validItems_iff, receivedItems_eq]
    exact List.forall_mem_map.mpr fun v hv => ih v hv (h v hv)
  | dict items ih =>
    intro h
    rw [Accepted, acceptedMembers_iff] at h
    have hkeys : (KeyedList.Keys (receivedMembers order nearest items)).Nodup := by
      rw [receivedMembers_eq, KeyedList.Keys, List.map_map]
      exact h.1
    have hperm := collect_perm order hkeys
    rw [received, valid, validMembers_iff]
    refine ⟨(hperm.map Prod.fst).nodup_iff.mpr hkeys, fun m hm => ?_⟩
    have hmem := hperm.subset hm
    rw [receivedMembers_eq] at hmem
    obtain ⟨n, hn, rfl⟩ := List.mem_map.mp hmem
    exact ih n hn (h.2 n hn)

/-- The members that the crate writes for a dict: its items in the order of the map. -/
theorem canonical_members {crates : Crates} (hcollect : crates.collect = order.collect)
    {items : List (String × PyValue)} (h : (KeyedList.Keys items).Nodup) :
    canonicalize crates (received order nearest (.dict items)) =
      .object ((order.collect items).map fun m =>
        (m.1, canonicalize crates (received order nearest m.2))) := by
  rw [received, canonicalize, hcollect, canonicalizeMembers_eq, receivedMembers_eq]
  cases order with
  | byKey =>
    simp only [MapOrder.collect]
    rw [KeyedList.collectByKey_map,
      KeyedList.collectByKey_of_sorted (KeyedList.sorted_collectByKey _),
      KeyedList.collectByKey_map, List.map_map]
    rfl
  | byInsertion =>
    have hkeep {γ : Type} (f : PyValue → γ) :
        KeyedList.collectLast (items.map fun m => (m.1, f m.2)) =
          items.map fun m => (m.1, f m.2) := by
      refine KeyedList.collectLast_eq ?_
      rw [KeyedList.Keys, List.map_map]
      exact h
    simp only [MapOrder.collect]
    rw [hkeep, List.map_map, KeyedList.collectLast_eq h]
    exact congrArg _ (hkeep fun v => canonicalize crates (received .byInsertion nearest v))

/-- A list that is sorted already is the same in either map. -/
theorem collect_of_sorted {β : Type} {items : List (String × β)}
    (hsorted : order = .byKey ∨ KeyedList.Sorted items) (hkeys : (KeyedList.Keys items).Nodup) :
    order.collect items = KeyedList.collectByKey items := by
  cases order with
  | byKey => rfl
  | byInsertion =>
    rcases hsorted with hkey | hsorted
    · cases hkey
    · exact (KeyedList.collectLast_eq hkeys).trans (KeyedList.collectByKey_of_sorted hsorted).symm

/-- Both sides write the same document exactly when the value is one they hold alike. -/
theorem document_eq_iff {crates : Crates} (h : SerdeJson order floatText crates) (v : PyValue) :
    Accepted nearest v →
      (document v = Capability.document floatText
          (canonicalize crates (received order nearest v)) ↔ Alike order floatText v) := by
  induction v using PyValue.induction with
  | none | bool b | str s =>
    intro _
    simp [document, received, canonicalize, Capability.document, Alike]
  | int n =>
    intro hn
    rw [document, received, canonicalize, Capability.document, JsonText.Doc.atom.injEq]
    exact integerText_received h.float hn
  | float bits =>
    intro _
    rw [document, received, canonicalize, Capability.document, JsonText.Doc.atom.injEq]
    exact Iff.rfl
  | list items ih =>
    intro haccepted
    rw [Accepted, acceptedItems_iff] at haccepted
    rw [document, received, canonicalize, Capability.document, JsonText.Doc.array.injEq,
      documentItems_eq, Capability.documentItems_eq, canonicalizeItems_eq, receivedItems_eq,
      List.map_map, List.map_map, List.map_inj_left, Alike, alikeItems_iff]
    exact forall₂_congr fun v hv => ih v hv (haccepted v hv)
  | dict items ih =>
    intro haccepted
    rw [Accepted, acceptedMembers_iff] at haccepted
    obtain ⟨hkeys, hvalues⟩ := haccepted
    have hperm := KeyedList.collectByKey_perm hkeys
    have hsame : ∀ m ∈ items, document m.2 =
        Capability.document floatText (canonicalize crates (received order nearest m.2)) ↔
          Alike order floatText m.2 := fun m hm => ih m hm (hvalues m hm)
    rw [document_dict hkeys, canonical_members h.collect hkeys, Capability.document,
      Capability.documentMembers_eq, List.map_map, JsonText.Doc.object.injEq, Alike,
      alikeMembers_iff]
    -- listed in one order, the members are the same when their values are
    have hvalues_iff : (KeyedList.collectByKey items).map (fun m => (m.1.toList, document m.2)) =
        (KeyedList.collectByKey items).map (fun m => (m.1.toList,
          Capability.document floatText (canonicalize crates (received order nearest m.2)))) ↔
        ∀ m ∈ items, Alike order floatText m.2 := by
      rw [List.map_inj_left]
      constructor
      · intro hall m hm
        exact (hsame m hm).mp (Prod.mk.inj (hall m (hperm.symm.subset hm))).2
      · intro hall m hm
        rw [(hsame m (hperm.subset hm)).mpr (hall m (hperm.subset hm))]
    constructor
    · intro heq
      have hsorted : order = .byKey ∨ KeyedList.Sorted items := by
        cases order with
        | byKey => exact .inl rfl
        | byInsertion =>
          rw [MapOrder.collect, KeyedList.collectLast_eq hkeys] at heq
          refine .inr (KeyedList.sorted_of_keys_eq ?_)
          have htexts := congrArg (List.map fun m => String.ofList m.1) heq
          simpa [List.map_map, Function.comp_def] using htexts
      rw [collect_of_sorted hsorted hkeys] at heq
      exact ⟨hsorted, hvalues_iff.mp heq⟩
    · rintro ⟨hsorted, hall⟩
      rw [collect_of_sorted hsorted hkeys]
      exact hvalues_iff.mpr hall

end

end PyValue

/-! ## The two byte strings -/

section

variable {order : MapOrder} {nearest : Int → UInt64} {floatText : UInt64 → List Char}
  {crates : Crates} {v : PyValue}

/-- The gateway and the crate give the value one byte string. -/
def SameBytes (order : MapOrder) (nearest : Int → UInt64) (crates : Crates) (v : PyValue) : Prop :=
  ∃ bytes, canonicalJson v = .ok bytes ∧
    crates.toVec (canonicalize crates (v.received order nearest)) = some bytes

theorem canonicalJson_eq (hv : v.Accepted nearest) :
    canonicalJson v = .ok (String.ofList (JsonText.render v.document)).toUTF8.data.toList := by
  rw [canonicalJson, if_pos (PyValue.allFinite_of_accepted v hv)]

theorem toUTF8_injective {s t : String} (h : s.toUTF8.data.toList = t.toUTF8.data.toList) :
    s = t :=
  String.toByteArray_inj.mp (ByteArray.ext (Array.toList_inj.mp h))

/-- The byte strings are the same when the documents are. -/
theorem sameBytes_iff (h : SerdeJson order floatText crates) (hv : v.Accepted nearest) :
    SameBytes order nearest crates v ↔
      v.document = document floatText (canonicalize crates (v.received order nearest)) := by
  have hvalid : valid (canonicalize crates (v.received order nearest)) :=
    valid_canonicalize h.collect _ (PyValue.valid_received v hv)
  rw [SameBytes, canonicalJson_eq hv, toVec_eq h]
  constructor
  · rintro ⟨bytes, hpython, hrust⟩
    have htext : String.ofList (JsonText.render v.document) =
        jsonText floatText (canonicalize crates (v.received order nearest)) :=
      toUTF8_injective ((Except.ok.inj hpython).trans (Option.some.inj hrust).symm)
    exact JsonText.render_injective (PyValue.wellFormed_document v hv)
      (wellFormed_document h.float _ hvalid) (String.ofList_inj.mp htext)
  · intro hdocument
    refine ⟨_, rfl, ?_⟩
    rw [hdocument, jsonBytes, jsonText]

theorem canonical_encoders_agree_iff (h : SerdeJson order floatText crates)
    (hv : v.Accepted nearest) :
    SameBytes order nearest crates v ↔ v.Alike order floatText :=
  (sameBytes_iff h hv).trans (PyValue.document_eq_iff h v hv)

end

/-- Over the tree map a dict with its keys in any order. -/
theorem canonical_encoders_agree_iff_tree :
    SameBytes .byKey (fun _ => 0) (sampleCrates .byKey)
      (.dict [("b", .int (-2)), ("a", .list [.str "é", .none])]) := by
  refine (canonical_encoders_agree_iff (sampleCrates_serdeJson .byKey) ?_).mpr ?_
  · exact ⟨by decide, .inl (by decide), ⟨trivial, trivial, trivial⟩, trivial⟩
  · exact ⟨.inl rfl, (by decide : inRange (-2) = true), ⟨trivial, trivial, trivial⟩, trivial⟩

/-- The arguments of a call with one integer that is too long for 64 bits. -/
def longInteger : PyValue := .dict [("n", .int (2 ^ 64))]

/-- The crate holds the integer as the float `2 ^ 64`, whose text is not the one of
    the integer. -/
theorem sameBytes_of_longInteger :
    longInteger.Accepted (fun _ => 0x43F0000000000000) ∧
      ∀ order floatText crates, SerdeJson order floatText crates →
        ¬ SameBytes order (fun _ => 0x43F0000000000000) crates longInteger := by
  have haccepted : longInteger.Accepted (fun _ => 0x43F0000000000000) :=
    ⟨by decide, .inr (by decide), trivial⟩
  refine ⟨haccepted, fun order floatText crates h hsame => ?_⟩
  have halike := (PyValue.document_eq_iff h _ haccepted).mp ((sameBytes_iff h haccepted).mp hsame)
  have hrange : inRange (2 ^ 64) = true := halike.2.1
  exact absurd hrange (by decide)

end AiPlatform.Capability
