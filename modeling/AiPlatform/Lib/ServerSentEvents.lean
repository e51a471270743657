/-
  AiPlatform.Lib.ServerSentEvents

  The events that a stream in the event-stream format (`text/event-stream`) dispatches.

  A stream is a list of symbols, bytes or characters: an `Alphabet` says which of them are
  the ASCII characters and which stand for the byte order mark.  Lines end with a carriage
  return, a line feed, or both; a mark in front of the stream is dropped; an event that is
  not closed by an empty line is not dispatched.

  A parser is `Quiet` behind an empty line, with nothing of the next event read.  There a
  comment of its own, closed by an empty line, leaves the parser as it was
  (`feed_comment`).  `Padded` says that such comments were put into a stream, each where the
  stream so far ends with an empty line; the events stay the same (`events_padded`).
-/

import Mathlib.Tactic.Common

namespace ServerSentEvents

/-- The symbols of a stream. -/
structure Alphabet (α : Type) where
  ascii : Char → α
  mark : List α
  ascii_injective : ∀ c d, c.toNat < 128 → d.toNat < 128 → ascii c = ascii d → c = d
  mark_ne_nil : mark ≠ []
  mark_not_ascii : ∀ c, c.toNat < 128 → ascii c ∉ mark

/-- UTF-8 -/
def bytes : Alphabet UInt8 where
  ascii c := UInt8.ofNat c.toNat
  mark := [0xEF, 0xBB, 0xBF]
  ascii_injective c d hc hd h := by
    have htoNat := congrArg UInt8.toNat h
    rw [UInt8.toNat_ofNat_of_lt' (Nat.lt_trans hc (by decide)),
      UInt8.toNat_ofNat_of_lt' (Nat.lt_trans hd (by decide))] at htoNat
    exact Char.toNat_inj.mp htoNat
  mark_ne_nil := by decide
  mark_not_ascii c hc h := by
    have hlt : (UInt8.ofNat c.toNat).toNat < 128 := by
      rw [UInt8.toNat_ofNat_of_lt' (Nat.lt_trans hc (by decide))]
      exact hc
    simp only [List.mem_cons, List.not_mem_nil, or_false] at h
    rcases h with h | h | h <;> rw [h] at hlt <;> exact absurd hlt (by decide)

/-- Decoded text. -/
def characters : Alphabet Char where
  ascii c := c
  mark := [Char.ofNat 0xFEFF]
  ascii_injective _ _ _ _ h := h
  mark_ne_nil := by decide
  mark_not_ascii c hc h := by
    obtain rfl := List.mem_singleton.mp h
    exact absurd hc (by decide)

structure Event (α : Type) where
  type : List α
  data : List α
  lastEventId : List α
deriving DecidableEq, Repr

/-- What is read of a stream: the line so far, the buffers, and the events dispatched. -/
structure Parser (α : Type) where
  line : List α := []
  afterReturn : Bool := false
  data : List α := []
  eventType : List α := []
  lastEventId : List α := []
  events : List (Event α) := []
deriving DecidableEq, Repr

variable {α : Type} [DecidableEq α] (A : Alphabet α)

def Alphabet.text (text : String) : List α := text.toList.map A.ascii

def Alphabet.lf : α := A.ascii '\n'

def Alphabet.cr : α := A.ascii '\r'

/-- The type of an event; `message` when no field gave one. -/
def Alphabet.typeOf (eventType : List α) : List α := if eventType = [] then A.text "message" else eventType

namespace Parser

/-- An empty line: the event is dispatched when it has data. -/
def dispatch (p : Parser α) : Parser α :=
  if p.data = [] then { p with eventType := [] }
  else
    { p with
      data := []
      eventType := []
      events := p.events ++
        [{ type := A.typeOf p.eventType
           data := p.data.dropLast  -- the line feed behind the last line
           lastEventId := p.lastEventId }] }

/-- A field of a name. -/
def field (p : Parser α) (name value : List α) : Parser α :=
  if name = A.text "event" then { p with eventType := value }
  else if name = A.text "data" then { p with data := p.data ++ value ++ [A.lf] }
  else if name = A.text "id" then
    if A.ascii (Char.ofNat 0) ∈ value then p else { p with lastEventId := value }
  -- `retry` sets the time to wait before the next connection
  else p

/-- The name before the first colon; one space behind the colon is dropped. -/
def splitField (line : List α) : List α × List α :=
  let name := line.takeWhile (· ≠ A.ascii ':')
  match line.dropWhile (· ≠ A.ascii ':') with
  | [] => (name, [])
  | _ :: value => (name, if value.head? = some (A.ascii ' ') then value.tail else value)

/-- The end of a line. -/
def endLine (p : Parser α) : Parser α :=
  if p.line = [] then dispatch A p
  else if p.line.head? = some (A.ascii ':') then { p with line := [] }
  else
    let (name, value) := splitField A p.line
    field A { p with line := [] } name value

def step (p : Parser α) (x : α) : Parser α :=
  if x = A.cr then { endLine A p with afterReturn := true }
  else if x = A.lf then
    if p.afterReturn then { p with afterReturn := false } else endLine A p
  else { p with line := p.line ++ [x], afterReturn := false }

def feed (p : Parser α) (stream : List α) : Parser α := stream.foldl (step A) p

/-- Nothing of the next event is read yet. -/
structure Quiet (p : Parser α) : Prop where
  line : p.line = []
  afterReturn : p.afterReturn = false
  data : p.data = []
  eventType : p.eventType = []

end Parser

/-- The stream without the mark in front of it. -/
def dropMark (stream : List α) : List α :=
  if A.mark <+: stream then stream.drop A.mark.length else stream

/-- The events when a mark in front is read as the beginning of the first line. -/
def eventsWithMark (stream : List α) : List (Event α) := (Parser.feed A {} stream).events

/-- The events that a stream dispatches. -/
def events (stream : List α) : List (Event α) := eventsWithMark A (dropMark A stream)

example : (events characters "data: a\r\ndata:b\n\nid: 7\r\n\r\ndata: lost".toList) =
    [{ type := "message".toList, data := "a\nb".toList, lastEventId := [] }] := by decide

/-! ## Line ends -/

variable {A}

omit [DecidableEq α] in
theorem lf_ne_cr : A.lf ≠ A.cr := fun h =>
  absurd (A.ascii_injective '\n' '\r' (by decide) (by decide) h) (by decide)

namespace Parser

theorem feed_append (p : Parser α) (first rest : List α) :
    feed A p (first ++ rest) = feed A (feed A p first) rest :=
  List.foldl_append

/-- Symbols that end no line are put behind it. -/
theorem feed_bare {xs : List α} (hne : xs ≠ []) (h : ∀ x ∈ xs, x ≠ A.cr ∧ x ≠ A.lf) (p : Parser α) :
    feed A p xs = { p with line := p.line ++ xs, afterReturn := false } := by
  induction xs generalizing p with
  | nil => exact absurd rfl hne
  | cons x xs ih =>
    obtain ⟨⟨hcr, hlf⟩, hrest⟩ := List.forall_mem_cons.mp h
    have hstep : step A p x = { p with line := p.line ++ [x], afterReturn := false } := by
      rw [step, if_neg hcr, if_neg hlf]
    cases xs with
    | nil => exact hstep
    | cons next xs =>
      rw [feed, List.foldl_cons, hstep]
      have hfeed := ih (List.cons_ne_nil _ _) hrest { p with line := p.line ++ [x], afterReturn := false }
      rw [feed] at hfeed
      rw [hfeed, List.append_assoc]
      rfl

theorem feed_lf (p : Parser α) :
    feed A p [A.lf] = if p.afterReturn then { p with afterReturn := false } else endLine A p := by
  rw [feed, List.foldl_cons, List.foldl_nil, step, if_neg lf_ne_cr, if_pos rfl]

theorem feed_cr (p : Parser α) : feed A p [A.cr] = { endLine A p with afterReturn := true } := by
  rw [feed, List.foldl_cons, List.foldl_nil, step, if_pos rfl]

theorem field_line (p : Parser α) (name value : List α) :
    (field A p name value).line = p.line ∧ (field A p name value).afterReturn = p.afterReturn := by
  unfold field
  split_ifs <;> exact ⟨rfl, rfl⟩

omit [DecidableEq α] in
theorem dispatch_line (p : Parser α) :
    (dispatch A p).line = p.line ∧ (dispatch A p).afterReturn = p.afterReturn := by
  unfold dispatch
  split_ifs <;> exact ⟨rfl, rfl⟩

theorem endLine_line (p : Parser α) :
    (endLine A p).line = [] ∧ (endLine A p).afterReturn = p.afterReturn := by
  unfold endLine
  split_ifs with hline hcomment
  · obtain ⟨heq, hreturn⟩ := dispatch_line (A := A) p
    exact ⟨heq.trans hline, hreturn⟩
  · exact ⟨rfl, rfl⟩
  · exact field_line _ _ _

theorem quiet_endLine {p : Parser α} (hline : p.line = []) (hreturn : p.afterReturn = false) :
    Quiet (endLine A p) := by
  unfold endLine dispatch
  rw [if_pos hline]
  split_ifs with hdata
  · exact ⟨hline, hreturn, hdata, rfl⟩
  · exact ⟨hline, hreturn, rfl, rfl⟩

/-- Behind a line feed the next line has not begun. -/
theorem feed_lf_line (p : Parser α) (h : p.afterReturn = true → p.line = []) :
    (feed A p [A.lf]).line = [] ∧ (feed A p [A.lf]).afterReturn = false := by
  rw [feed_lf]
  split_ifs with hreturn
  · exact ⟨h hreturn, rfl⟩
  · obtain ⟨hline, hafter⟩ := endLine_line (A := A) p
    exact ⟨hline, hafter.trans (Bool.eq_false_iff.mpr hreturn)⟩

/-- Behind a carriage return the line is empty. -/
def ReturnOk (p : Parser α) : Prop := p.afterReturn = true → p.line = []

theorem returnOk_step (p : Parser α) (x : α) : ReturnOk (step A p x) := by
  unfold step
  split_ifs with hcr hlf hreturn
  · exact fun _ => (endLine_line p).1
  · exact fun h => absurd h Bool.false_ne_true
  · exact fun _ => (endLine_line p).1
  · exact fun h => absurd h Bool.false_ne_true

theorem returnOk_feed {p : Parser α} (h : ReturnOk p) (stream : List α) : ReturnOk (feed A p stream) := by
  induction stream generalizing p with
  | nil => exact h
  | cons x stream ih => exact ih (returnOk_step p x)

/-- A stream that ends with two line feeds. -/
theorem quiet_of_feeds {p : Parser α} (h : ReturnOk p) (stream : List α) :
    Quiet (feed A p (stream ++ [A.lf, A.lf])) := by
  have hbefore := returnOk_feed h stream (A := A)
  rw [feed_append, show [A.lf, A.lf] = [A.lf] ++ [A.lf] from rfl, feed_append]
  obtain ⟨hline, hreturn⟩ := feed_lf_line _ hbefore
  rw [feed_lf (feed A _ [A.lf]), if_neg (by rw [hreturn]; decide)]
  exact quiet_endLine hline hreturn

/-- A stream that ends with two pairs of a carriage return and a line feed. -/
theorem quiet_of_returns {p : Parser α} (stream : List α) :
    Quiet (feed A p (stream ++ [A.cr, A.lf, A.cr, A.lf])) := by
  have hpair : ∀ q : Parser α, feed A q [A.cr, A.lf] = { endLine A q with afterReturn := false } := by
    intro q
    rw [show [A.cr, A.lf] = [A.cr] ++ [A.lf] from rfl, feed_append, feed_cr, feed_lf, if_pos rfl]
  rw [feed_append, show [A.cr, A.lf, A.cr, A.lf] = [A.cr, A.lf] ++ [A.cr, A.lf] from rfl, feed_append,
    hpair, hpair]
  obtain ⟨hline, -⟩ := endLine_line (A := A) (feed A p stream)
  have hquiet := quiet_endLine (A := A) (p := { endLine A (feed A p stream) with afterReturn := false }) hline rfl
  exact ⟨hquiet.line, rfl, hquiet.data, hquiet.eventType⟩

/-- A comment with an empty line behind it, read where no event has begun. -/
theorem feed_comment {p : Parser α} (hquiet : Quiet p) {comment : List α}
    (h : ∀ x ∈ comment, x ≠ A.cr ∧ x ≠ A.lf) :
    feed A p ((A.ascii ':' :: comment) ++ [A.lf, A.lf]) = p := by
  obtain ⟨hline, hreturn, hdata, htype⟩ := hquiet
  have hcolon : A.ascii ':' ≠ A.cr ∧ A.ascii ':' ≠ A.lf :=
    ⟨fun heq => absurd (A.ascii_injective ':' '\r' (by decide) (by decide) heq) (by decide),
      fun heq => absurd (A.ascii_injective ':' '\n' (by decide) (by decide) heq) (by decide)⟩
  have hbare := feed_bare (List.cons_ne_nil (A.ascii ':') comment)
    (List.forall_mem_cons.mpr ⟨hcolon, h⟩) p
  rw [feed_append, hbare, show [A.lf, A.lf] = [A.lf] ++ [A.lf] from rfl, feed_append, feed_lf, feed_lf]
  -- the first line feed ends the comment, the second one an empty line without data
  simp only [Bool.false_eq_true, if_false, endLine, hline, List.nil_append, List.cons_ne_nil,
    List.head?_cons, if_true, dispatch, hdata]
  cases p
  simp_all

end Parser

/-! ## Comments between the events -/

variable (A)

/-- The stream so far ends with an empty line. -/
def EndsFrame (sent : List α) : Prop := [A.lf, A.lf] <:+ sent ∨ [A.cr, A.lf, A.cr, A.lf] <:+ sent

/-- A comment of its own, closed by an empty line. -/
def commentFrame (comment : List α) : List α := (A.ascii ':' :: comment) ++ [A.lf, A.lf]

/-- `padded` is `stream` with comments between its frames, after what was `sent` before. -/
inductive Padded (comment : List α) : List α → List α → List α → Prop where
  | nil (sent : List α) : Padded comment sent [] []
  | copy {sent stream padded : List α} (x : α) (h : Padded comment (sent ++ [x]) stream padded) :
      Padded comment sent (x :: stream) (x :: padded)
  | pad {sent stream padded : List α} (hframe : EndsFrame A sent) (h : Padded comment sent stream padded) :
      Padded comment sent stream (commentFrame A comment ++ padded)

variable {A} {comment : List α}

omit [DecidableEq α] in
theorem Padded.copyAll {sent stream padded : List α} (chunk : List α)
    (h : Padded A comment (sent ++ chunk) stream padded) :
    Padded A comment sent (chunk ++ stream) (chunk ++ padded) := by
  induction chunk generalizing sent with
  | nil => simpa using h
  | cons x chunk ih => exact .copy x (ih (by simpa using h))

omit [DecidableEq α] in
/-- A pattern at the end reaches back no further than a part without its first symbol. -/
theorem suffix_of_suffix_append {x : α} {xs front back : List α} (h : x :: xs <:+ front ++ back)
    (hx : x ∉ front) : x :: xs <:+ back := by
  obtain ⟨before, heq⟩ := h
  rcases List.append_eq_append_iff.mp heq with ⟨rest, hfront, hback⟩ | ⟨rest, -, hback⟩
  · cases rest with
    | nil => exact ⟨[], hback⟩
    | cons y rest =>
      obtain ⟨rfl, -⟩ := List.cons.inj hback
      exact absurd (hfront ▸ List.mem_append_right _ List.mem_cons_self) hx
  · exact ⟨rest, hback.symm⟩

theorem quiet_of_endsFrame {front back : List α} (hfront : A.lf ∉ front ∧ A.cr ∉ front)
    (h : EndsFrame A (front ++ back)) : Parser.Quiet (Parser.feed A {} back) := by
  rcases h with h | h
  · obtain ⟨stream, rfl⟩ := suffix_of_suffix_append h hfront.1
    exact Parser.quiet_of_feeds (fun h => absurd h Bool.false_ne_true) stream
  · obtain ⟨stream, rfl⟩ := suffix_of_suffix_append h hfront.2
    exact Parser.quiet_of_returns stream

/-- What was read before, a part without line ends apart, leads to the same state with the
    comments and without. -/
theorem Padded.feed_eq (hcomment : ∀ x ∈ comment, x ≠ A.cr ∧ x ≠ A.lf) (front back : List α)
    {stream padded : List α} (hfront : A.lf ∉ front ∧ A.cr ∉ front) (h : Padded A comment (front ++ back) stream padded) :
    Parser.feed A (Parser.feed A {} back) padded = Parser.feed A (Parser.feed A {} back) stream := by
  generalize hsent : front ++ back = sent at h
  induction h generalizing back with
  | nil => rfl
  | copy x _ ih =>
    have hnext := ih (back ++ [x]) (by rw [← hsent, List.append_assoc])
    rw [Parser.feed_append] at hnext
    exact hnext
  | pad hframe _ ih =>
    rw [Parser.feed_append, commentFrame,
      Parser.feed_comment (quiet_of_endsFrame hfront (hsent ▸ hframe)) hcomment]
    exact ih back hsent

omit [DecidableEq α] in
/-- A mark in front of the padded stream is in front of the stream. -/
theorem Padded.prefix_of_prefix {front sent stream padded : List α} (h : Padded A comment sent stream padded)
    (hcolon : A.ascii ':' ∉ front) (hlead : front <+: padded) : front <+: stream := by
  induction h generalizing front with
  | nil => exact hlead
  | copy x _ ih =>
    cases front with
    | nil => exact List.nil_prefix
    | cons y front =>
      obtain ⟨rfl, hrest⟩ := List.cons_prefix_cons.mp hlead
      exact List.cons_prefix_cons.mpr ⟨rfl, ih (fun hmem => hcolon (List.mem_cons_of_mem _ hmem)) hrest⟩
  | pad _ _ _ =>
    cases front with
    | nil => exact List.nil_prefix
    | cons y front =>
      obtain ⟨rfl, -⟩ := List.cons_prefix_cons.mp hlead
      exact absurd List.mem_cons_self hcolon

omit [DecidableEq α] in
/-- No comment is put into a front part without line feeds. -/
theorem Padded.split {front sent stream padded : List α}
    (h : Padded A comment sent (front ++ stream) padded) (hsent : A.lf ∉ sent ++ front) :
    ∃ rest, padded = front ++ rest ∧ Padded A comment (sent ++ front) stream rest := by
  induction front generalizing sent padded with
  | nil => exact ⟨padded, rfl, by simpa using h⟩
  | cons x front ih =>
    rw [List.cons_append] at h
    cases h with
    | copy _ h =>
      obtain ⟨rest, rfl, hrest⟩ := ih h (by simpa using hsent)
      exact ⟨rest, rfl, by simpa using hrest⟩
    | pad hframe _ =>
      refine absurd (List.mem_append_left _ ?_) hsent
      rcases hframe with hframe | hframe <;> exact hframe.subset (by simp)

omit [DecidableEq α] in
theorem not_mem_mark : A.lf ∉ A.mark ∧ A.cr ∉ A.mark ∧ A.ascii ':' ∉ A.mark :=
  ⟨A.mark_not_ascii '\n' (by decide), A.mark_not_ascii '\r' (by decide), A.mark_not_ascii ':' (by decide)⟩

theorem dropMark_append (stream : List α) : dropMark A (A.mark ++ stream) = stream := by
  rw [dropMark, if_pos (List.prefix_append _ _), List.drop_left]

/-- Comments between the frames of a stream change none of its events. -/
theorem events_padded (hcomment : ∀ x ∈ comment, x ≠ A.cr ∧ x ≠ A.lf) {stream padded : List α}
    (h : Padded A comment [] stream padded) : events A padded = events A stream := by
  obtain ⟨hlf, hcr, hcolon⟩ := not_mem_mark (A := A)
  unfold events eventsWithMark
  by_cases hmark : A.mark <+: stream
  · obtain ⟨rest, rfl⟩ := hmark
    obtain ⟨rest', rfl, hrest⟩ := h.split (by simpa using hlf)
    have hfeed := Padded.feed_eq hcomment A.mark [] ⟨hlf, hcr⟩ (by simpa using hrest)
    rw [dropMark_append, dropMark_append]
    exact congrArg Parser.events hfeed
  · have hpadded : ¬ A.mark <+: padded := fun hlead => hmark (h.prefix_of_prefix hcolon hlead)
    have hfeed := Padded.feed_eq hcomment [] [] ⟨by simp, by simp⟩ (by simpa using h)
    rw [dropMark, if_neg hpadded, dropMark, if_neg hmark]
    exact congrArg Parser.events hfeed

/-- Comments in front of the stream keep a mark from being the first of it. -/
theorem events_comments_padded (hcomment : ∀ x ∈ comment, x ≠ A.cr ∧ x ≠ A.lf) {stream padded : List α}
    (h : Padded A comment [] stream padded) (n : Nat) :
    events A ((List.replicate (n + 1) (commentFrame A comment)).flatten ++ padded) = eventsWithMark A stream := by
  have hquiet : Parser.Quiet (α := α) {} := ⟨rfl, rfl, rfl, rfl⟩
  have hcomments : ∀ n, Parser.feed A {} ((List.replicate n (commentFrame A comment)).flatten ++ padded) =
      Parser.feed A {} padded := by
    intro n
    induction n with
    | zero => rfl
    | succ n ih =>
      rw [List.replicate_succ, List.flatten_cons, List.append_assoc, Parser.feed_append, commentFrame,
        Parser.feed_comment hquiet hcomment]
      exact ih
  have hmark : ¬ A.mark <+: (List.replicate (n + 1) (commentFrame A comment)).flatten ++ padded := by
    intro hlead
    obtain ⟨x, mark, hx⟩ := List.exists_cons_of_ne_nil A.mark_ne_nil
    rw [hx, List.replicate_succ, List.flatten_cons] at hlead
    obtain ⟨rfl, -⟩ := List.cons_prefix_cons.mp hlead
    exact not_mem_mark.2.2 (hx ▸ List.mem_cons_self)
  rw [events, dropMark, if_neg hmark, eventsWithMark, hcomments]
  exact congrArg Parser.events (h.feed_eq hcomment [] [] ⟨by simp, by simp⟩)

end ServerSentEvents
