/-
  AiPlatform.Lib.ItemStream

  Streams that tell of items: that one was added, pieces of its content, the content as a
  whole, that it is done.  Every event names the place of its item.

  A log is `Proper` if each item is added once and done once, with its pieces in between, and
  the place that its events name is the one it has in the output.  `Absent`, `Begun` and
  `Ended` say how far the log is with one item; `proper_of_ended` puts the items together.
-/

import Mathlib.Data.List.Basic
import Mathlib.Tactic.Common

namespace ItemStream

variable {ι β : Type}

inductive Kind (β : Type) where
  | added
  | delta (piece : List β)
  | whole (text : List β)
  | done (text : List β)
  | other

namespace Kind

def isAdded : Kind β → Bool
  | .added => true
  | _ => false

def isDelta : Kind β → Bool
  | .delta _ => true
  | _ => false

def isDone : Kind β → Bool
  | .done _ => true
  | _ => false

def piece : Kind β → List β
  | .delta piece => piece
  | _ => []

/-- The content as a whole. -/
def text? : Kind β → Option (List β)
  | .whole text | .done text => some text
  | _ => none

/-- What comes while an item is open. -/
def IsPart (k : Kind β) : Prop := k = .other ∨ ∃ piece, k = .delta piece

/-- What comes when it closes. -/
def Closes (text : List β) (k : Kind β) : Prop := k = .whole text ∨ k = .done text

variable {k : Kind β} {text : List β}

theorem IsPart.isAdded (h : k.IsPart) : k.isAdded = false := by
  rcases h with rfl | ⟨piece, rfl⟩
  · rfl
  · rfl

theorem IsPart.isDone (h : k.IsPart) : k.isDone = false := by
  rcases h with rfl | ⟨piece, rfl⟩
  · rfl
  · rfl

theorem IsPart.text? (h : k.IsPart) : k.text? = none := by
  rcases h with rfl | ⟨piece, rfl⟩
  · rfl
  · rfl

theorem Closes.isAdded (h : k.Closes text) : k.isAdded = false := by
  rcases h with rfl | rfl
  · rfl
  · rfl

theorem Closes.isDelta (h : k.Closes text) : k.isDelta = false := by
  rcases h with rfl | rfl
  · rfl
  · rfl

theorem Closes.piece (h : k.Closes text) : k.piece = [] := by
  rcases h with rfl | rfl
  · rfl
  · rfl

theorem Closes.text? (h : k.Closes text) : k.text? = some text := by
  rcases h with rfl | rfl
  · rfl
  · rfl

end Kind

/-- What an event says: of which item, at which place, and what. -/
structure Note (ι β : Type) where
  item : ι
  index : Nat
  kind : Kind β

variable [DecidableEq ι]

/-- The notes of one item. -/
def story (x : ι) (log : List (Note ι β)) : List (Note ι β) := log.filter fun n => n.item = x

/-- The pieces of an item, one after the other. -/
def pieces (x : ι) (log : List (Note ι β)) : List β := (story x log).flatMap fun n => n.kind.piece

structure Proper (log : List (Note ι β)) (output : List ι) : Prop where
  listed : ∀ n ∈ log, n.item ∈ output
  added_once : ∀ x ∈ output, (story x log).countP (fun n => n.kind.isAdded) = 1
  done_once : ∀ x ∈ output, (story x log).countP (fun n => n.kind.isDone) = 1
  after_added : ∀ before n after, log = before ++ n :: after → n.kind.isDelta = true →
    ∃ m ∈ before, m.item = n.item ∧ m.kind.isAdded = true
  before_done : ∀ before n after, log = before ++ n :: after → n.kind.isDelta = true →
    ∀ m ∈ before, m.item = n.item → m.kind.isDone = false
  one_index : ∀ n ∈ log, ∀ m ∈ log, n.item = m.item → n.index = m.index
  own_index : ∀ n ∈ log, ∀ m ∈ log, n.item ≠ m.item → n.index ≠ m.index
  position : ∀ n ∈ log, output[n.index]? = some n.item
  text : ∀ n ∈ log, ∀ text, n.kind.text? = some text → pieces n.item log = text

/-! ## One item -/

def Absent (x : ι) (log : List (Note ι β)) : Prop := story x log = []

def Begun (x : ι) (index : Nat) (text : List β) (log : List (Note ι β)) : Prop :=
  ∃ body : List (Kind β), story x log = (.added :: body).map (Note.mk x index) ∧
    (∀ k ∈ body, k.IsPart) ∧ body.flatMap Kind.piece = text

def Ended (x : ι) (index : Nat) (text : List β) (log : List (Note ι β)) : Prop :=
  ∃ body closing : List (Kind β),
    story x log = (.added :: body ++ closing).map (Note.mk x index) ∧ (∀ k ∈ body, k.IsPart) ∧
    body.flatMap Kind.piece = text ∧ (∀ k ∈ closing, k.Closes text) ∧ closing.countP Kind.isDone = 1

variable {x : ι} {index : Nat} {text : List β} {log more : List (Note ι β)} {body closing : List (Kind β)}

theorem story_append (x : ι) (log more : List (Note ι β)) :
    story x (log ++ more) = story x log ++ story x more :=
  List.filter_append ..

theorem mem_story {n : Note ι β} : n ∈ story x log ↔ n ∈ log ∧ n.item = x := by
  rw [story, List.mem_filter, decide_eq_true_iff]

theorem story_append_of_absent (h : Absent x more) : story x (log ++ more) = story x log := by
  rw [story_append, h, List.append_nil]

theorem pieces_append (x : ι) (log more : List (Note ι β)) :
    pieces x (log ++ more) = pieces x log ++ pieces x more := by
  rw [pieces, story_append, List.flatMap_append]
  rfl

/-- What tells of another item only. -/
theorem absent_map {y : ι} (hne : y ≠ x) (kinds : List (Kind β)) : Absent x (kinds.map (Note.mk y index)) := by
  refine List.filter_eq_nil_iff.mpr fun n hn => ?_
  obtain ⟨k, -, rfl⟩ := List.mem_map.mp hn
  simpa using hne

theorem story_map (x : ι) (kinds : List (Kind β)) :
    story x (kinds.map (Note.mk x index)) = kinds.map (Note.mk x index) := by
  refine List.filter_eq_self.mpr fun n hn => ?_
  obtain ⟨k, -, rfl⟩ := List.mem_map.mp hn
  exact decide_eq_true rfl

theorem Absent.pieces (h : Absent x log) : pieces x log = [] := by
  rw [ItemStream.pieces, h]
  rfl

/-- What is not in the output is not told of. -/
theorem listed_of_absent {output : List ι} (h : ∀ x, x ∉ output → Absent x log) : ∀ n ∈ log, n.item ∈ output := by
  intro n hn
  by_contra hnot
  have hmem : n ∈ story n.item log := mem_story.mpr ⟨hn, rfl⟩
  rw [h n.item hnot] at hmem
  cases hmem

theorem Absent.append (h : Absent x log) (hmore : Absent x more) : Absent x (log ++ more) :=
  (story_append_of_absent hmore).trans h

theorem Absent.begins (h : Absent x log) (index : Nat) (hbody : ∀ k ∈ body, k.IsPart) :
    Begun x index (body.flatMap Kind.piece) (log ++ (.added :: body).map (Note.mk x index)) := by
  refine ⟨body, ?_, hbody, rfl⟩
  rw [story_append, h, story_map, List.nil_append]

theorem Begun.append (h : Begun x index text log) (hmore : Absent x more) : Begun x index text (log ++ more) := by
  obtain ⟨body, hstory, hrest⟩ := h
  exact ⟨body, (story_append_of_absent hmore).trans hstory, hrest⟩

theorem Begun.goes_on (h : Begun x index text log) (hbody : ∀ k ∈ body, k.IsPart) :
    Begun x index (text ++ body.flatMap Kind.piece) (log ++ body.map (Note.mk x index)) := by
  obtain ⟨earlier, hstory, hearlier, htext⟩ := h
  refine ⟨earlier ++ body, ?_, List.forall_mem_append.mpr ⟨hearlier, hbody⟩, ?_⟩
  · rw [story_append, hstory, story_map, ← List.map_append]
    rfl
  · rw [List.flatMap_append, htext]

/-- What closes the item comes in between what tells of others. -/
theorem Begun.ends_in (h : Begun x index text log) (hmore : story x more = closing.map (Note.mk x index))
    (hclosing : ∀ k ∈ closing, k.Closes text) (hdone : closing.countP Kind.isDone = 1) :
    Ended x index text (log ++ more) := by
  obtain ⟨body, hstory, hbody, htext⟩ := h
  refine ⟨body, closing, ?_, hbody, htext, hclosing, hdone⟩
  rw [story_append, hstory, hmore, ← List.map_append]

theorem Begun.ends (h : Begun x index text log) (hclosing : ∀ k ∈ closing, k.Closes text)
    (hdone : closing.countP Kind.isDone = 1) : Ended x index text (log ++ closing.map (Note.mk x index)) :=
  h.ends_in (story_map x closing) hclosing hdone

/-- An item that is closed as soon as it is added. -/
theorem Absent.ends_in (h : Absent x log) (hmore : story x more = (.added :: closing).map (Note.mk x index))
    (hclosing : ∀ k ∈ closing, k.Closes []) (hdone : closing.countP Kind.isDone = 1) :
    Ended x index [] (log ++ more) := by
  refine ⟨[], closing, ?_, List.forall_mem_nil _, rfl, hclosing, hdone⟩
  rw [story_append, h, hmore]
  rfl

theorem Ended.append (h : Ended x index text log) (hmore : Absent x more) : Ended x index text (log ++ more) := by
  obtain ⟨body, closing, hstory, hrest⟩ := h
  exact ⟨body, closing, (story_append_of_absent hmore).trans hstory, hrest⟩

/-! ## All items -/

namespace Ended

variable (h : Ended x index text log)
include h

theorem index_eq {n : Note ι β} (hn : n ∈ log) (hitem : n.item = x) : n.index = index := by
  obtain ⟨body, closing, hstory, -⟩ := h
  have hmem : n ∈ story x log := mem_story.mpr ⟨hn, hitem⟩
  rw [hstory] at hmem
  obtain ⟨k, -, rfl⟩ := List.mem_map.mp hmem
  rfl

theorem pieces_eq : pieces x log = text := by
  obtain ⟨body, closing, hstory, -, htext, hclosing, -⟩ := h
  have hnone : closing.flatMap Kind.piece = [] :=
    List.flatMap_eq_nil_iff.mpr fun k hk => (hclosing k hk).piece
  rw [pieces, hstory, List.flatMap_map]
  show (Kind.added :: body ++ closing).flatMap Kind.piece = text
  rw [List.flatMap_append, hnone, List.append_nil, List.flatMap_cons, htext]
  rfl

theorem text_eq {n : Note ι β} (hn : n ∈ log) (hitem : n.item = x) {text' : List β}
    (htext : n.kind.text? = some text') : text' = text := by
  obtain ⟨body, closing, hstory, hbody, -, hclosing, -⟩ := h
  have hmem : n ∈ story x log := mem_story.mpr ⟨hn, hitem⟩
  rw [hstory] at hmem
  obtain ⟨k, hk, rfl⟩ := List.mem_map.mp hmem
  rcases List.mem_append.mp hk with hk | hk
  · rcases List.mem_cons.mp hk with rfl | hk
    · cases htext
    · rw [(hbody k hk).text?] at htext
      cases htext
  · exact Option.some.inj (htext.symm.trans (hclosing k hk).text?)

theorem countP_added : (story x log).countP (fun n => n.kind.isAdded) = 1 := by
  obtain ⟨body, closing, hstory, hbody, -, hclosing, -⟩ := h
  have hbody' : body.countP Kind.isAdded = 0 := List.countP_eq_zero.mpr fun k hk => by simp [(hbody k hk).isAdded]
  have hclosing' : closing.countP Kind.isAdded = 0 :=
    List.countP_eq_zero.mpr fun k hk => by simp [(hclosing k hk).isAdded]
  rw [hstory, List.countP_map]
  show (Kind.added :: body ++ closing).countP Kind.isAdded = 1
  rw [List.countP_append, hclosing', List.countP_cons, hbody']
  rfl

theorem countP_done : (story x log).countP (fun n => n.kind.isDone) = 1 := by
  obtain ⟨body, closing, hstory, hbody, -, -, hdone⟩ := h
  have hbody' : body.countP Kind.isDone = 0 := List.countP_eq_zero.mpr fun k hk => by simp [(hbody k hk).isDone]
  rw [hstory, List.countP_map]
  show (Kind.added :: body ++ closing).countP Kind.isDone = 1
  rw [List.countP_append, hdone, List.countP_cons, hbody']
  rfl

/-- Where a piece comes, the item was added before and is not done. -/
theorem around_delta {before after : List (Note ι β)} {n : Note ι β} (hlog : log = before ++ n :: after)
    (hitem : n.item = x) (hdelta : n.kind.isDelta = true) :
    (∃ m ∈ before, m.item = x ∧ m.kind.isAdded = true) ∧
      ∀ m ∈ before, m.item = x → m.kind.isDone = false := by
  obtain ⟨body, closing, hstory, hbody, -, hclosing, -⟩ := h
  have hsplit : (story x before).map (·.kind) ++ n.kind :: (story x after).map (·.kind) =
      Kind.added :: body ++ closing := by
    have hkinds := congrArg (List.map (·.kind)) hstory
    rw [hlog, story_append, story, story, List.filter_cons_of_pos (by simpa using hitem), List.map_append,
      List.map_cons, List.map_map] at hkinds
    exact hkinds.trans (List.map_id _)
  have hopen : ∀ k ∈ (story x before).map (·.kind), k.isDone = false := by
    rcases List.append_eq_append_iff.mp hsplit with ⟨middle, hmiddle, hrest⟩ | ⟨middle, hmiddle, hrest⟩
    · intro k hk
      have hmem : k ∈ Kind.added :: body := by
        rw [hmiddle]
        exact List.mem_append_left _ hk
      rcases List.mem_cons.mp hmem with rfl | hmem
      · rfl
      · exact (hbody k hmem).isDone
    · have hmem : n.kind ∈ closing := by
        rw [hrest]
        exact List.mem_append_right _ List.mem_cons_self
      rw [(hclosing _ hmem).isDelta] at hdelta
      cases hdelta
  constructor
  · cases hbefore : story x before with
    | nil =>
      rw [hbefore] at hsplit
      have hkind : n.kind = .added := (List.cons.inj hsplit).1
      rw [hkind] at hdelta
      cases hdelta
    | cons m rest =>
      rw [hbefore] at hsplit
      have hkind : m.kind = .added := (List.cons.inj hsplit).1
      obtain ⟨hmem, hm⟩ := mem_story.mp (hbefore ▸ List.mem_cons_self : m ∈ story x before)
      exact ⟨m, hmem, hm, by rw [hkind]; rfl⟩
  · intro m hm hitem
    exact hopen _ (List.mem_map_of_mem (mem_story.mpr ⟨hm, hitem⟩))

end Ended

/-- Where every item of the output has ended at its place, the log is proper. -/
theorem proper_of_ended {output : List ι}
    (hended : ∀ i x, output[i]? = some x → ∃ text, Ended x i text log)
    (hlisted : ∀ n ∈ log, n.item ∈ output) : Proper log output := by
  have hof : ∀ x ∈ output, ∃ i text, output[i]? = some x ∧ Ended x i text log := by
    intro x hx
    obtain ⟨i, hi⟩ := List.getElem?_of_mem hx
    obtain ⟨text, htext⟩ := hended i x hi
    exact ⟨i, text, hi, htext⟩
  have hplace : ∀ n ∈ log, output[n.index]? = some n.item := by
    intro n hn
    obtain ⟨i, text, hi, htext⟩ := hof n.item (hlisted n hn)
    rw [htext.index_eq hn rfl, hi]
  exact
    { listed := hlisted
      added_once := fun x hx => by
        obtain ⟨i, text, -, htext⟩ := hof x hx
        exact htext.countP_added
      done_once := fun x hx => by
        obtain ⟨i, text, -, htext⟩ := hof x hx
        exact htext.countP_done
      after_added := fun before n after hlog hdelta => by
        have hn : n ∈ log := hlog ▸ List.mem_append_right _ List.mem_cons_self
        obtain ⟨i, text, -, htext⟩ := hof n.item (hlisted n hn)
        exact (htext.around_delta hlog rfl hdelta).1
      before_done := fun before n after hlog hdelta => by
        have hn : n ∈ log := hlog ▸ List.mem_append_right _ List.mem_cons_self
        obtain ⟨i, text, -, htext⟩ := hof n.item (hlisted n hn)
        exact (htext.around_delta hlog rfl hdelta).2
      one_index := fun n hn m hm heq => by
        obtain ⟨i, text, -, htext⟩ := hof n.item (hlisted n hn)
        rw [htext.index_eq hn rfl, htext.index_eq hm heq.symm]
      own_index := fun n hn m hm hne heq => by
        have hsame := hplace n hn
        rw [heq, hplace m hm] at hsame
        exact hne (Option.some.inj hsame).symm
      position := hplace
      text := fun n hn text htext => by
        obtain ⟨i, text', -, hended'⟩ := hof n.item (hlisted n hn)
        rw [hended'.pieces_eq, hended'.text_eq hn rfl htext] }

end ItemStream
