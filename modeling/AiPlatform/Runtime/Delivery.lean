/-
  AiPlatform.Runtime.Delivery

  What one subscriber gets of the durable log.

  The stream keeps one cursor.  As long as each live message it takes is the
  next event of the log after the cursor, what it has sent and what lies after
  the cursor make up the log after `after_sequence`.  A live message further on
  moves the cursor past events that are then never read again: an initial page
  cut off by its limit, or two publishers that send in the other order.
-/

import AiPlatform.Runtime.EventStream

namespace AiPlatform.Runtime

open AiPlatform.Json Transition

/-- The sequences of a list of events. -/
def sequences (events : List SequencedAssistantTurnEventV1) : List Nat :=
  events.map SequencedAssistantTurnEventV1.sequence

@[simp] theorem sequences_nil : sequences [] = [] := rfl

@[simp] theorem sequences_cons (e : SequencedAssistantTurnEventV1)
    (events : List SequencedAssistantTurnEventV1) :
    sequences (e :: events) = e.sequence :: sequences events := rfl

@[simp] theorem sequences_append (xs ys : List SequencedAssistantTurnEventV1) :
    sequences (xs ++ ys) = sequences xs ++ sequences ys := List.map_append ..

/-! ## The log -/

namespace RootLog

/-- The events after a sequence. -/
def v1After (log : RootLog) (sequence : Nat) : List SequencedAssistantTurnEventV1 :=
  SeqLog.after SequencedAssistantTurnEventV1.sequence sequence log.v1

/-- The items are numbered `1..last_sequence`. -/
def Dense (log : RootLog) : Prop :=
  log.items.map RuntimeItem.sequence = List.range' 1 log.lastSequence

/-- The event is in the log under its sequence, but for its timestamp. -/
def Recorded (log : RootLog) (e : SequencedAssistantTurnEventV1) : Prop :=
  ∃ item ∈ log.v1, item.sequence = e.sequence ∧
    (item.event = e.event ∨ sameEventFact item.event e.event = true)

/-- What a step makes of the log. -/
inductive Grows (log : RootLog) : RootLog → Prop
  | same : Grows log log
  | pushed (kernelThreadId eventId eventKey : String) (payload : ItemPayload) :
      Grows log (log.push kernelThreadId eventId eventKey payload)

theorem v1_some {item : RuntimeItem} {e : SequencedAssistantTurnEventV1}
    (h : item.v1 = some e) : e.sequence = item.sequence := by
  unfold RuntimeItem.v1 at h
  split at h
  · obtain rfl := Option.some.inj h
    rfl
  · exact absurd h (by simp)

theorem Dense.ordered {log : RootLog} (h : log.Dense) :
    SeqLog.Ordered SequencedAssistantTurnEventV1.sequence log.v1 := by
  have hitems : SeqLog.Ordered RuntimeItem.sequence log.items := SeqLog.ordered_of_range h
  refine List.pairwise_filterMap.mpr (hitems.imp ?_)
  intro item item' hlt e he e' he'
  rw [v1_some he, v1_some he']
  exact hlt

theorem Dense.sequence_le {log : RootLog} (h : log.Dense) {e : SequencedAssistantTurnEventV1}
    (he : e ∈ log.v1) : e.sequence ≤ log.lastSequence := by
  obtain ⟨item, hitem, hv1⟩ := List.mem_filterMap.mp he
  have hmem : item.sequence ∈ List.range' 1 log.lastSequence := by
    rw [← h]
    exact List.mem_map_of_mem hitem
  have hle := (List.mem_range'_1.mp hmem).2
  rw [v1_some hv1]
  omega

theorem Dense.grows {log log' : RootLog} (h : log.Dense) (hg : Grows log log') : log'.Dense := by
  cases hg with
  | same => exact h
  | pushed kernelThreadId eventId eventKey payload =>
      show (log.items ++ [_]).map RuntimeItem.sequence = List.range' 1 (log.lastSequence + 1)
      rw [List.map_append, h, List.range'_concat, List.map_singleton]
      rw [Nat.one_mul, Nat.add_comm 1]

/-- A new event has the next sequence. -/
theorem Grows.v1 {log log' : RootLog} (h : Grows log log') :
    log'.v1 = log.v1 ∨ ∃ e, e.sequence = log.lastSequence + 1 ∧ log'.v1 = log.v1 ++ [e] := by
  cases h with
  | same => exact .inl rfl
  | pushed kernelThreadId eventId eventKey payload =>
      cases payload with
      | other =>
          left
          show (log.items ++ [_]).filterMap RuntimeItem.v1 = _
          rw [List.filterMap_append]
          exact List.append_nil _
      | compatV1 event =>
          refine .inr ⟨⟨log.lastSequence + 1, event⟩, rfl, ?_⟩
          show (log.items ++ [_]).filterMap RuntimeItem.v1 = _
          rw [List.filterMap_append]
          rfl

theorem Recorded.grows {log log' : RootLog} {e : SequencedAssistantTurnEventV1}
    (h : log.Recorded e) (hg : Grows log log') : log'.Recorded e := by
  obtain ⟨item, hitem, hrec⟩ := h
  refine ⟨item, ?_, hrec⟩
  rcases hg.v1 with heq | ⟨e', -, heq⟩
  · rw [heq]
    exact hitem
  · rw [heq]
    exact List.mem_append_left _ hitem

/-- A successful append adds the event, or finds it. -/
theorem appendV1Event_ok {log log' : RootLog} {kernelThreadId eventId eventKey : String}
    {event : AssistantTurnEventV1} {sequence : Nat}
    (h : log.appendV1Event kernelThreadId eventId eventKey event = .ok (sequence, log')) :
    Grows log log' ∧ log'.Recorded { sequence := sequence, event := event } := by
  unfold appendV1Event at h
  split at h
  · exact absurd h (by simp)
  split at h
  · rename_i item hfind
    split at h
    · exact absurd h (by simp)
    split at h
    · exact absurd h (by simp)
    rename_i original hpayload
    split at h
    · exact absurd h (by simp)
    rename_i hfact
    rw [not_or, Bool.not_eq_false] at hfact
    obtain ⟨rfl, rfl⟩ := Prod.mk.inj (Except.ok.inj h)
    have hv1 : item.v1 = some { sequence := item.sequence, event := original } := by
      simp [RuntimeItem.v1, hpayload]
    have hmem : ({ sequence := item.sequence, event := original } :
        SequencedAssistantTurnEventV1) ∈ log.v1 :=
      List.mem_filterMap.mpr ⟨item, List.mem_of_find?_eq_some hfind, hv1⟩
    exact ⟨.same, _, hmem, rfl, .inr hfact.2⟩
  · split at h
    · exact absurd h (by simp)
    obtain ⟨rfl, rfl⟩ := Prod.mk.inj (Except.ok.inj h)
    refine ⟨.pushed .., ⟨log.lastSequence + 1, event⟩, ?_, rfl, .inl rfl⟩
    show _ ∈ (log.items ++ [_]).filterMap RuntimeItem.v1
    rw [List.filterMap_append]
    exact List.mem_append_right _ (List.mem_singleton.mpr rfl)

theorem appendItem_grows (log : RootLog) (kernelThreadId eventId eventKey : String) :
    Grows log (log.appendItem kernelThreadId eventId eventKey) := by
  unfold appendItem
  split
  · exact .same
  · exact .pushed ..

/-- A page is the beginning of what lies after the cursor. -/
theorem readV1EventsAfter_ok {log : RootLog} {afterSequence limit : Int}
    {page : List SequencedAssistantTurnEventV1}
    (h : log.readV1EventsAfter afterSequence limit = .ok page) :
    page <+: log.v1After afterSequence.toNat := by
  unfold readV1EventsAfter at h
  split at h
  · exact absurd h (by simp)
  · obtain rfl := Except.ok.inj h
    exact List.take_prefix ..

end RootLog

open RootLog

variable {toString : SequencedAssistantTurnEventV1 → Option String} {root : String}
  {query : EventsQuery}

/-! ## What publishers send -/

/-- What waits to be sent or taken is in the log, but for events that could not be
    stored. -/
structure Published (root : String) (s : StreamState) : Prop where
  dense : s.log.Dense
  outbox : ∀ e ∈ s.outbox, s.log.Recorded e
  queue : ∀ message ∈ s.receiver.queue, message.rootThreadId = root →
    message.event.sequence < I64_MAX → s.log.Recorded message.event

theorem mem_push {receiver : Receiver} {message new : RuntimeBroadcastEvent}
    (h : message ∈ (receiver.push new).queue) : message ∈ receiver.queue ∨ message = new := by
  unfold Receiver.push at h
  split at h
  · exact (List.mem_append.mp h).imp_right List.mem_singleton.mp
  · refine (List.mem_append.mp h).imp (fun hold => ?_) List.mem_singleton.mp
    exact List.mem_of_mem_tail hold

/-- The stream as it was, with another receiver at most. -/
structure SameStream (s t : StreamState) : Prop where
  phase : t.phase = s.phase
  cursor : t.cursor = s.cursor
  sent : t.sent = s.sent

theorem deliver_cases (s : StreamState) (new : RuntimeBroadcastEvent) :
    (s.deliver new).log = s.log ∧ (s.deliver new).outbox = s.outbox ∧
      SameStream s (s.deliver new) ∧
      ∀ message ∈ (s.deliver new).receiver.queue, message ∈ s.receiver.queue ∨ message = new := by
  unfold StreamState.deliver
  split
  · exact ⟨rfl, rfl, ⟨rfl, rfl, rfl⟩, fun _ h => .inl h⟩
  · exact ⟨rfl, rfl, ⟨rfl, rfl, rfl⟩, fun _ h => mem_push h⟩

theorem Published.deliver {s : StreamState} (h : Published root s)
    {new : RuntimeBroadcastEvent} (hnew : new.rootThreadId = root →
      new.event.sequence < I64_MAX → s.log.Recorded new.event) :
    Published root (s.deliver new) := by
  obtain ⟨hlog, hout, -, hqueue⟩ := deliver_cases s new
  constructor
  · rw [hlog]
    exact h.dense
  · rw [hlog, hout]
    exact h.outbox
  · intro message hmem hroot hlt
    rw [hlog]
    rcases hqueue message hmem with hold | rfl
    · exact h.queue message hold hroot hlt
    · exact hnew hroot hlt

theorem Published.of_grows {s t : StreamState} (h : Published root s)
    (hgrows : Grows s.log t.log) (hreceiver : ∀ m ∈ t.receiver.queue, m ∈ s.receiver.queue)
    (houtbox : ∀ e ∈ t.outbox, e ∈ s.outbox ∨ t.log.Recorded e) : Published root t where
  dense := h.dense.grows hgrows
  outbox := by
    intro e he
    rcases houtbox e he with hold | hrec
    · exact (h.outbox e hold).grows hgrows
    · exact hrec
  queue := by
    intro message hmem hroot hlt
    exact (h.queue message (hreceiver message hmem) hroot hlt).grows hgrows

/-! ## What the subscriber has -/

/-- The events sent that are in the log by their sequence. -/
def durable (sent : List SequencedAssistantTurnEventV1) : List SequencedAssistantTurnEventV1 :=
  sent.filter (fun e => e.sequence < I64_MAX)

/-- The stream has sent the log after `a` up to its cursor.  After an event with
    the greatest sequence it sends no more. -/
structure Follows (a : Nat) (s : StreamState) : Prop where
  account : ∃ rest, sequences (s.log.v1After a) = sequences (durable s.sent) ++ rest ∧
    (rest = sequences (s.log.v1After s.cursor) ∨ I64_MAX ≤ s.cursor)
  lower : a ≤ s.cursor
  upper : s.cursor ≤ max a s.log.lastSequence ∨ I64_MAX ≤ s.cursor
  recorded : ∀ e ∈ durable s.sent, s.log.Recorded e
  backlog : ∀ page, s.phase = .draining page → page <+: s.log.v1After s.cursor
  start : s.phase = .requested ∨ s.phase = .subscribed → s.cursor = a

theorem durable_append (sent : List SequencedAssistantTurnEventV1)
    (e : SequencedAssistantTurnEventV1) :
    durable (sent ++ [e]) = durable sent ++ if e.sequence < I64_MAX then [e] else [] := by
  unfold durable
  rw [List.filter_append]
  congr 1
  simp only [List.filter_cons, List.filter_nil, decide_eq_true_eq]

/-- A growing log grows after any two cursors alike, unless the later one is past
    the log. -/
theorem v1After_grows {log log' : RootLog} (h : Grows log log') {a c : Nat} (hac : a ≤ c)
    (hc : c ≤ max a log.lastSequence ∨ I64_MAX ≤ c) :
    ∃ new, sequences (log'.v1After a) = sequences (log.v1After a) ++ new ∧
      (sequences (log'.v1After c) = sequences (log.v1After c) ++ new ∨ I64_MAX ≤ c) := by
  rcases h.v1 with heq | ⟨e, hseq, heq⟩
  · refine ⟨[], ?_, .inl ?_⟩ <;> simp [v1After, heq]
  · refine ⟨sequences (SeqLog.after SequencedAssistantTurnEventV1.sequence a [e]), ?_, ?_⟩
    · rw [v1After, heq, SeqLog.after_append, sequences_append]
      rfl
    · rcases hc with hc | hmax
      · left
        have hsame : (c < e.sequence) = (a < e.sequence) := by
          rw [hseq]
          exact propext ⟨fun _ => by omega, fun _ => by omega⟩
        rw [v1After, heq, SeqLog.after_append, sequences_append]
        simp only [SeqLog.after, List.filter_cons, List.filter_nil, hsame, v1After]
      · exact .inr hmax

theorem prefix_grows {log log' : RootLog} (h : Grows log log') {c : Nat}
    {page : List SequencedAssistantTurnEventV1} (hpage : page <+: log.v1After c) :
    page <+: log'.v1After c := by
  rcases h.v1 with heq | ⟨e, -, heq⟩
  · rw [v1After, heq]
    exact hpage
  · rw [v1After, heq, SeqLog.after_append]
    exact hpage.trans (List.prefix_append ..)

/-- The log grows while the stream stands still. -/
theorem Follows.of_grows {a : Nat} {s t : StreamState} (h : Follows a s)
    (hgrows : Grows s.log t.log) (hsame : SameStream s t) : Follows a t := by
  obtain ⟨rest, haccount, hrest⟩ := h.account
  obtain ⟨new, hnew, hcursor⟩ := v1After_grows hgrows h.lower h.upper
  constructor
  · refine ⟨rest ++ new, ?_, ?_⟩
    · rw [hnew, haccount, hsame.sent, List.append_assoc]
    · rw [hsame.cursor]
      rcases hrest with rfl | hmax
      · exact hcursor.imp_left Eq.symm
      · exact .inr hmax
  · rw [hsame.cursor]
    exact h.lower
  · rw [hsame.cursor]
    refine h.upper.imp_left (fun hle => ?_)
    have hlast : s.log.lastSequence ≤ t.log.lastSequence := by
      generalize t.log = log' at hgrows
      cases hgrows with
      | same => exact Nat.le_refl _
      | pushed => exact Nat.le_succ _
    omega
  · rw [hsame.sent]
    exact fun e he => (h.recorded e he).grows hgrows
  · rw [hsame.phase, hsame.cursor]
    exact fun page hpage => prefix_grows hgrows (h.backlog page hpage)
  · rw [hsame.phase, hsame.cursor]
    exact h.start

theorem Follows.deliver {a : Nat} {s : StreamState} (h : Follows a s)
    (message : RuntimeBroadcastEvent) : Follows a (s.deliver message) := by
  obtain ⟨hlog, -, hsame, -⟩ := deliver_cases s message
  refine h.of_grows ?_ hsame
  rw [hlog]
  exact .same

/-- The phase moves on while cursor, log and what was sent stay. -/
theorem Follows.of_phase {a : Nat} {s t : StreamState} (h : Follows a s) (hlog : t.log = s.log)
    (hcursor : t.cursor = s.cursor) (hsent : t.sent = s.sent)
    (hbacklog : ∀ page, t.phase = .draining page → page <+: s.log.v1After s.cursor)
    (hstart : t.phase = .requested ∨ t.phase = .subscribed → s.cursor = a) : Follows a t where
  account := by
    rw [hlog, hcursor, hsent]
    exact h.account
  lower := by
    rw [hcursor]
    exact h.lower
  upper := by
    rw [hcursor, hlog]
    exact h.upper
  recorded := by
    rw [hsent, hlog]
    exact h.recorded
  backlog := by
    rw [hlog, hcursor]
    exact hbacklog
  start := by
    rw [hcursor]
    exact hstart

/-- The event `e` is sent, and the cursor moves to it. -/
structure Yields (e : SequencedAssistantTurnEventV1) (s t : StreamState) : Prop where
  log : t.log = s.log
  cursor : t.cursor = e.sequence
  sent : t.sent = s.sent ++ [e]

/-- The next event of the log is sent. -/
theorem Follows.yield_next {a : Nat} {s t : StreamState} (h : Follows a s)
    (hdense : s.log.Dense) {e item : SequencedAssistantTurnEventV1} (hyield : Yields e s t)
    (hseq : item.sequence = e.sequence)
    (hnext : s.log.v1After s.cursor = item :: s.log.v1After e.sequence)
    (hrec : e.sequence < I64_MAX → s.log.Recorded e)
    (hbacklog : ∀ page, t.phase = .draining page → page <+: s.log.v1After e.sequence)
    (hstart : ¬ (t.phase = .requested ∨ t.phase = .subscribed)) : Follows a t := by
  obtain ⟨rest, haccount, hrest⟩ := h.account
  have hmem : item ∈ s.log.v1After s.cursor := by
    rw [hnext]
    exact List.mem_cons_self ..
  obtain ⟨hitem, hlt⟩ := SeqLog.mem_after.mp hmem
  rw [hseq] at hlt
  have hlast : e.sequence ≤ s.log.lastSequence := hseq ▸ hdense.sequence_le hitem
  have hlower := h.lower
  constructor
  · rw [hyield.log, hyield.cursor, hyield.sent, durable_append]
    by_cases hmax : e.sequence < I64_MAX
    · rcases hrest with rfl | hover
      · refine ⟨_, ?_, .inl rfl⟩
        rw [haccount, hnext, if_pos hmax]
        simp [hseq]
      · omega
    · refine ⟨rest, ?_, .inr (by omega)⟩
      rw [haccount, if_neg hmax, List.append_nil]
  · rw [hyield.cursor]
    omega
  · rw [hyield.cursor, hyield.log]
    omega
  · intro e' he'
    rw [hyield.log]
    rw [hyield.sent, durable_append] at he'
    rcases List.mem_append.mp he' with hold | hnew
    · exact h.recorded e' hold
    · split at hnew
      · rename_i hmax
        obtain rfl := List.mem_singleton.mp hnew
        exact hrec hmax
      · exact absurd hnew List.not_mem_nil
  · rw [hyield.log, hyield.cursor]
    exact hbacklog
  · exact fun hphase => absurd hphase hstart

/-- An event that is not in the log is sent, and nothing will be after it. -/
theorem Follows.yield_transient {a : Nat} {s t : StreamState} (h : Follows a s)
    {e : SequencedAssistantTurnEventV1} (hyield : Yields e s t)
    (hlt : s.cursor < e.sequence) (hmax : I64_MAX ≤ e.sequence)
    (hbacklog : ∀ page, t.phase ≠ .draining page)
    (hstart : ¬ (t.phase = .requested ∨ t.phase = .subscribed)) : Follows a t := by
  obtain ⟨rest, haccount, -⟩ := h.account
  have hsent : durable t.sent = durable s.sent := by
    rw [hyield.sent, durable_append, if_neg (Nat.not_lt.mpr hmax), List.append_nil]
  have hlower := h.lower
  constructor
  · rw [hsent, hyield.log, hyield.cursor]
    exact ⟨rest, haccount, .inr hmax⟩
  · rw [hyield.cursor]
    omega
  · rw [hyield.cursor]
    exact .inr hmax
  · rw [hsent, hyield.log]
    exact h.recorded
  · exact fun page hphase => absurd hphase (hbacklog page)
  · exact fun hphase => absurd hphase hstart

/-! ## One move -/

/-- The stream takes `message` from the channel, and it is an event of the log that
    lies after the cursor. -/
structure TakesLive (root : String) (x : StreamMove) (message : RuntimeBroadcastEvent) :
    Prop where
  input : x.input = .recv
  phase : x.pre.phase = .selecting
  lagged : x.pre.receiver.lagged = 0
  queue : ∃ rest, x.pre.receiver.queue = message :: rest
  rootThreadId : message.rootThreadId = root
  cursor : x.pre.cursor < message.event.sequence
  durable : message.event.sequence < I64_MAX

/-- No event of the log lies between the cursor and a live one that is taken. -/
def TakesNext (root : String) (x : StreamMove) : Prop :=
  ∀ message, TakesLive root x message → ∀ e ∈ x.pre.log.v1, x.pre.cursor < e.sequence →
    message.event.sequence ≤ e.sequence

theorem eventsMachine_makes {x : StreamMove}
    (hx : (eventsMachine toString root query).Makes x) :
    x.input.step toString root query x.pre = some x.post := by
  obtain ⟨t, hstep, hout⟩ := Option.map_eq_some_iff.mp hx
  rw [hstep, ← (Prod.mk.inj hout).2]

theorem published_step {x : StreamMove} (hx : (eventsMachine toString root query).Makes x)
    (h : Published root x.pre) : Published root x.post := by
  obtain ⟨pre, input, reply, post⟩ := x
  have hstep := eventsMachine_makes hx
  simp only at hstep h ⊢
  have hsame : ∀ t : StreamState, t.log = pre.log → t.outbox = pre.outbox →
      (∀ m ∈ t.receiver.queue, m ∈ pre.receiver.queue) → Published root t := by
    intro t hlog hout hqueue
    refine h.of_grows (hlog ▸ .same) hqueue (fun e he => .inl ?_)
    rw [← hout]
    exact he
  cases input with
  | append kernelThreadId eventId eventKey event =>
      simp only [StreamInput.step] at hstep
      split at hstep
      · obtain rfl := Option.some.inj hstep
        exact h
      · rename_i sequence log happend
        obtain rfl := Option.some.inj hstep
        obtain ⟨hgrows, hrec⟩ := appendV1Event_ok happend
        refine h.of_grows hgrows (fun _ hm => hm) (fun e he => ?_)
        rcases List.mem_append.mp he with hold | hnew
        · exact .inl hold
        · obtain rfl := List.mem_singleton.mp hnew
          exact .inr hrec
  | appendItem kernelThreadId eventId eventKey =>
      obtain rfl := Option.some.inj hstep
      exact h.of_grows (appendItem_grows ..) (fun _ hm => hm) (fun _ he => .inl he)
  | send index =>
      simp only [StreamInput.step] at hstep
      split at hstep
      · exact absurd hstep (by simp)
      · rename_i event hget
        obtain rfl := Option.some.inj hstep
        have hrec : pre.log.Recorded event := h.outbox event (List.mem_of_getElem? hget)
        refine Published.deliver ?_ (fun _ _ => hrec)
        exact h.of_grows .same (fun _ hm => hm) (fun e he => .inl (List.mem_of_mem_eraseIdx he))
  | sendTransient event =>
      obtain rfl := Option.some.inj hstep
      exact h.deliver (fun _ hlt => absurd hlt (Nat.lt_irrefl _))
  | sendOther message =>
      simp only [StreamInput.step] at hstep
      split at hstep
      · exact absurd hstep (by simp)
      · rename_i hother
        obtain rfl := Option.some.inj hstep
        exact h.deliver (fun hroot _ => absurd hroot hother)
  | subscribe | tick | shutdown =>
      simp only [StreamInput.step] at hstep
      split at hstep
      · obtain rfl := Option.some.inj hstep
        exact hsame _ rfl rfl (fun _ hm => hm)
      · exact absurd hstep (by simp)
  | next =>
      simp only [StreamInput.step] at hstep
      split at hstep
      · obtain rfl := Option.some.inj hstep
        exact hsame _ rfl rfl (fun _ hm => hm)
      · obtain rfl := Option.some.inj hstep
        exact hsame _ rfl rfl (fun _ hm => hm)
      · exact absurd hstep (by simp)
  | readInitial available | readBacklog available =>
      simp only [StreamInput.step] at hstep
      split at hstep
      · split at hstep
        · split at hstep
          · obtain rfl := Option.some.inj hstep
            exact hsame _ rfl rfl (fun _ hm => hm)
          · obtain rfl := Option.some.inj hstep
            exact hsame _ rfl rfl (fun _ hm => hm)
        · obtain rfl := Option.some.inj hstep
          exact hsame _ rfl rfl (fun _ hm => hm)
      · exact absurd hstep (by simp)
  | recv =>
      simp only [StreamInput.step] at hstep
      split at hstep
      · split at hstep
        · obtain rfl := Option.some.inj hstep
          exact hsame _ rfl rfl (fun _ hm => hm)
        · split at hstep
          · exact absurd hstep (by simp)
          · rename_i message queue hqueue
            have htail : ∀ m ∈ queue, m ∈ pre.receiver.queue := by
              rw [hqueue]
              exact fun m hm => List.mem_cons_of_mem _ hm
            split at hstep
            · obtain rfl := Option.some.inj hstep
              exact hsame _ rfl rfl htail
            · obtain rfl := Option.some.inj hstep
              exact hsame _ rfl rfl htail
      · exact absurd hstep (by simp)

theorem yields_yieldEvent {s : StreamState} {e : SequencedAssistantTurnEventV1}
    (hser : (sseEvent toString e).isSome = true) : Yields e s (s.yieldEvent toString e) where
  log := rfl
  cursor := rfl
  sent := if_pos hser

/-- The events of a page are the next ones of the log, one after another. -/
theorem follows_next {a : Nat} {s : StreamState} (h : Follows a s) (hdense : s.log.Dense)
    {event : SequencedAssistantTurnEventV1} {backlog : List SequencedAssistantTurnEventV1}
    (hphase : s.phase = .draining (event :: backlog))
    (hser : (sseEvent toString event).isSome = true) :
    Follows a ({ s with phase := .draining backlog }.yieldEvent toString event) := by
  obtain ⟨further, hfurther⟩ := h.backlog _ hphase
  have hrest : backlog ++ further = s.log.v1After event.sequence :=
    hdense.ordered.after_head hfurther.symm
  have hmem : event ∈ s.log.v1 := by
    have hafter : event ∈ s.log.v1After s.cursor := by
      rw [← hfurther]
      exact List.mem_append_left _ (List.mem_cons_self ..)
    exact (SeqLog.mem_after.mp hafter).1
  refine h.yield_next hdense  ⟨rfl, rfl, if_pos hser⟩ rfl ?_ ?_ ?_ ?_
  · rw [← hfurther, List.cons_append, hrest]
  · exact fun _ => ⟨event, hmem, rfl, .inl rfl⟩
  · intro page hpage
    obtain rfl := StreamPhase.draining.inj hpage
    rw [← hrest]
    exact List.prefix_append ..
  · rintro (hreq | hsub)
    · exact nomatch hreq
    · exact nomatch hsub

/-- A live message that is taken: the next event of the log, or one that is not in
    it. -/
theorem follows_live {a : Nat} {s : StreamState} (h : Follows a s) (hpub : Published root s)
    {message : RuntimeBroadcastEvent} {queue : List RuntimeBroadcastEvent}
    (hphase : s.phase = .selecting) (hqueue : s.receiver.queue = message :: queue)
    (hroot : message.rootThreadId = root) (hlt : s.cursor < message.event.sequence)
    (hser : (sseEvent toString message.event).isSome = true)
    (hnext : message.event.sequence < I64_MAX → ∀ e ∈ s.log.v1, s.cursor < e.sequence →
      message.event.sequence ≤ e.sequence) :
    Follows a ({ s with receiver := { s.receiver with queue := queue } }.yieldEvent toString
      message.event) := by
  have hstart : ¬ (s.phase = .requested ∨ s.phase = .subscribed) := by
    rw [hphase]
    rintro (hreq | hsub)
    · exact nomatch hreq
    · exact nomatch hsub
  have hbacklog : ∀ page, s.phase ≠ .draining page := by
    intro page
    rw [hphase]
    exact nofun
  have hyield : Yields message.event s
      ({ s with receiver := { s.receiver with queue := queue } }.yieldEvent toString
        message.event) := ⟨rfl, rfl, if_pos hser⟩
  by_cases hmax : message.event.sequence < I64_MAX
  · have hrec : s.log.Recorded message.event := by
      refine hpub.queue message ?_ hroot hmax
      rw [hqueue]
      exact List.mem_cons_self ..
    have ⟨item, hitem, hseq, _⟩ := hrec
    have hafter := hpub.dense.ordered.after_eq_cons hitem (hseq ▸ hlt)
      (fun e he hce => hseq ▸ hnext hmax e he hce)
    rw [hseq] at hafter
    exact h.yield_next hpub.dense hyield hseq hafter (fun _ => hrec)
      (fun page hpage => absurd hpage (hbacklog page)) hstart
  · exact h.yield_transient hyield hlt (Nat.not_lt.mp hmax) hbacklog hstart

theorem follows_step (hser : ∀ e, (sseEvent toString e).isSome = true) {x : StreamMove}
    (hx : (eventsMachine toString root query).Makes x) (hpub : Published root x.pre)
    (h : Follows query.afterSequence.toNat x.pre) (hnext : TakesNext root x) :
    Follows query.afterSequence.toNat x.post := by
  obtain ⟨pre, input, reply, post⟩ := x
  have hstep := eventsMachine_makes hx
  simp only at hstep h hpub ⊢
  cases input with
  | append kernelThreadId eventId eventKey event =>
      simp only [StreamInput.step] at hstep
      split at hstep
      · obtain rfl := Option.some.inj hstep
        exact h
      · rename_i happend
        obtain rfl := Option.some.inj hstep
        exact h.of_grows (appendV1Event_ok happend).1 ⟨rfl, rfl, rfl⟩
  | appendItem kernelThreadId eventId eventKey =>
      obtain rfl := Option.some.inj hstep
      exact h.of_grows (appendItem_grows ..) ⟨rfl, rfl, rfl⟩
  | send index =>
      simp only [StreamInput.step] at hstep
      split at hstep
      · exact absurd hstep (by simp)
      · obtain rfl := Option.some.inj hstep
        have hsent : Follows query.afterSequence.toNat
            { pre with outbox := pre.outbox.eraseIdx index } := h.of_grows .same ⟨rfl, rfl, rfl⟩
        exact hsent.deliver _
  | sendTransient event =>
      obtain rfl := Option.some.inj hstep
      exact h.deliver _
  | sendOther message =>
      simp only [StreamInput.step] at hstep
      split at hstep
      · exact absurd hstep (by simp)
      · obtain rfl := Option.some.inj hstep
        exact h.deliver message
  | subscribe =>
      simp only [StreamInput.step] at hstep
      split at hstep
      · rename_i hphase
        obtain rfl := Option.some.inj hstep
        exact h.of_phase rfl rfl rfl nofun (fun _ => h.start (.inl hphase))
      · exact absurd hstep (by simp)
  | tick | shutdown =>
      simp only [StreamInput.step] at hstep
      split at hstep
      · obtain rfl := Option.some.inj hstep
        exact h.of_phase rfl rfl rfl nofun nofun
      · exact absurd hstep (by simp)
  | readInitial available =>
      simp only [StreamInput.step] at hstep
      split at hstep
      · rename_i hphase
        split at hstep
        · split at hstep
          · obtain rfl := Option.some.inj hstep
            exact h.of_phase rfl rfl rfl nofun nofun
          · rename_i initial hread
            obtain rfl := Option.some.inj hstep
            refine h.of_phase rfl rfl rfl (fun page hpage => ?_) nofun
            obtain rfl := StreamPhase.draining.inj hpage
            rw [h.start (.inr hphase)]
            exact readV1EventsAfter_ok hread
        · obtain rfl := Option.some.inj hstep
          exact h.of_phase rfl rfl rfl nofun nofun
      · exact absurd hstep (by simp)
  | next =>
      simp only [StreamInput.step] at hstep
      split at hstep
      · obtain rfl := Option.some.inj hstep
        exact h.of_phase rfl rfl rfl nofun nofun
      · rename_i event backlog hphase
        obtain rfl := Option.some.inj hstep
        exact follows_next h hpub.dense hphase (hser event)
      · exact absurd hstep (by simp)
  | readBacklog available =>
      simp only [StreamInput.step] at hstep
      split at hstep
      · split at hstep
        · split at hstep
          · obtain rfl := Option.some.inj hstep
            exact h.of_phase rfl rfl rfl nofun nofun
          · rename_i backlog hread
            obtain rfl := Option.some.inj hstep
            refine h.of_phase rfl rfl rfl (fun page hpage => ?_) nofun
            obtain rfl := StreamPhase.draining.inj hpage
            have hprefix := readV1EventsAfter_ok hread
            rw [Int.toNat_natCast] at hprefix
            exact hprefix
        · obtain rfl := Option.some.inj hstep
          exact h.of_phase rfl rfl rfl nofun nofun
      · exact absurd hstep (by simp)
  | recv =>
      simp only [StreamInput.step] at hstep
      split at hstep
      · rename_i hphase
        split at hstep
        · obtain rfl := Option.some.inj hstep
          exact h.of_phase rfl rfl rfl nofun nofun
        · rename_i hlagged
          split at hstep
          · exact absurd hstep (by simp)
          · rename_i message queue hqueue
            split at hstep
            · rename_i hlive
              obtain rfl := Option.some.inj hstep
              refine follows_live h hpub hphase hqueue hlive.1 hlive.2 (hser message.event) ?_
              intro hmax
              exact hnext message ⟨rfl, hphase, Nat.eq_zero_of_not_pos hlagged, ⟨queue, hqueue⟩,
                hlive.1, hlive.2, hmax⟩
            · obtain rfl := Option.some.inj hstep
              refine h.of_phase rfl rfl rfl (fun page hpage => ?_) (fun hstart => ?_)
              · rw [hphase] at hpage
                exact nomatch hpage
              · rw [hphase] at hstart
                rcases hstart with hreq | hsub
                · exact nomatch hreq
                · exact nomatch hsub
      · exact absurd hstep (by simp)

/-! ## Delivery -/

/-- The durable events the subscriber has are a gap-free beginning of the log after
    `after_sequence`, in order and each once. -/
def Delivered (query : EventsQuery) (s : StreamState) : Prop :=
  sequences (durable s.sent) <+: sequences (s.log.v1After query.afterSequence.toNat) ∧
    ∀ e ∈ durable s.sent, s.log.Recorded e

theorem Follows.delivered {s : StreamState} (h : Follows query.afterSequence.toNat s) :
    Delivered query s := by
  obtain ⟨rest, haccount, -⟩ := h.account
  exact ⟨⟨rest, haccount.symm⟩, h.recorded⟩

/-- The step that takes a live message yields it. -/
theorem TakesLive.post {x : StreamMove} (hx : (eventsMachine toString root query).Makes x)
    {message : RuntimeBroadcastEvent} (h : TakesLive root x message)
    (hser : (sseEvent toString message.event).isSome = true) :
    Yields message.event x.pre x.post := by
  obtain ⟨pre, input, reply, post⟩ := x
  have hstep := eventsMachine_makes hx
  obtain ⟨hinput, hphase, hlagged, ⟨rest, hqueue⟩, hroot, hlt, -⟩ := h
  simp only at hstep hinput hphase hlagged hqueue hlt ⊢
  subst hinput
  simp only [StreamInput.step, hphase, hlagged, hqueue, Nat.lt_irrefl, if_false] at hstep
  rw [if_pos ⟨hroot, hlt⟩] at hstep
  obtain rfl := Option.some.inj hstep
  exact ⟨rfl, rfl, if_pos hser⟩

/-- A live message that leaves events behind shows in what the subscriber has. -/
theorem takesNext_of_delivered (hser : ∀ e, (sseEvent toString e).isSome = true)
    {x : StreamMove} (hx : (eventsMachine toString root query).Makes x)
    (hdense : x.pre.log.Dense) (h : Follows query.afterSequence.toNat x.pre)
    (hpost : Delivered query x.post) : TakesNext root x := by
  intro message htakes e he hlt
  have hyield := htakes.post hx (hser message.event)
  have hcursor := htakes.cursor
  have hmax := htakes.durable
  obtain ⟨rest, haccount, hrest⟩ := h.account
  have hprefix := hpost.1
  rw [hyield.log, hyield.sent, durable_append, if_pos hmax, sequences_append, haccount,
    List.prefix_append_right_inj] at hprefix
  rcases hrest with rfl | hover
  · have hafter : e ∈ x.pre.log.v1After x.pre.cursor := SeqLog.mem_after.mpr ⟨he, hlt⟩
    have hordered := hdense.ordered.after x.pre.cursor
    cases hpage : x.pre.log.v1After x.pre.cursor with
    | nil =>
        rw [hpage] at hafter
        exact absurd hafter List.not_mem_nil
    | cons first further =>
        rw [hpage] at hprefix hafter
        have hfirst : message.event.sequence = first.sequence :=
          (List.cons_prefix_cons.mp hprefix).1
        rw [v1After] at hpage
        rw [hpage] at hordered
        rcases List.mem_cons.mp hafter with rfl | hmem
        · omega
        · have := (List.pairwise_cons.mp hordered).1 e hmem
          omega
  · omega

/-- A subscription to come, on any log, with any events still to be sent. -/
structure StreamState.Fresh (query : EventsQuery) (s : StreamState) : Prop where
  dense : s.log.Dense
  outbox : ∀ e ∈ s.outbox, s.log.Recorded e
  receiver : s.receiver.queue = []
  phase : s.phase = .requested
  cursor : s.cursor = query.afterSequence.toNat
  sent : s.sent = []

theorem StreamState.Fresh.published {s : StreamState} (h : s.Fresh query) : Published root s where
  dense := h.dense
  outbox := h.outbox
  queue := by
    rw [h.receiver]
    exact fun _ hm => absurd hm List.not_mem_nil

theorem StreamState.Fresh.follows {s : StreamState} (h : s.Fresh query) :
    Follows query.afterSequence.toNat s where
  account := by
    rw [h.sent, h.cursor]
    exact ⟨_, rfl, .inl rfl⟩
  lower := Nat.le_of_eq h.cursor.symm
  upper := by
    rw [h.cursor]
    exact .inl (Nat.le_max_left ..)
  recorded := by
    rw [h.sent]
    exact fun _ he => absurd he List.not_mem_nil
  backlog := by
    rw [h.phase]
    exact nofun
  start := fun _ => h.cursor

theorem sseEvent_isSome (htoString : ∀ e, (toString e).isSome = true)
    (e : SequencedAssistantTurnEventV1) : (sseEvent toString e).isSome = true := by
  unfold sseEvent
  split
  · rename_i hnone
    have := htoString e
    rw [hnone] at this
    exact absurd this (by simp)
  · rfl

/-- Over every run, what the subscriber has is a gap-free beginning of the log at
    every moment exactly when no live message is taken past an event that it has not
    had yet. -/
theorem delivered_iff_takesNext (htoString : ∀ e, (toString e).isSome = true)
    {s₀ s : StreamState} {tr : List StreamMove} (h₀ : s₀.Fresh query)
    (h : Run (eventsMachine toString root query) s₀ tr s) :
    (∀ x ∈ tr, Delivered query x.post) ↔ ∀ x ∈ tr, TakesNext root x := by
  have hser := sseEvent_isSome htoString
  have hstart : Published root s₀ ∧ Follows query.afterSequence.toNat s₀ :=
    ⟨h₀.published, h₀.follows⟩
  constructor
  · intro hdelivered
    have hinv := h.invariant_when
      (P := fun s => Published root s ∧ Follows query.afterSequence.toNat s)
      (fun x hx hpost hpre => ⟨published_step hx hpre.1, follows_step hser hx hpre.1 hpre.2
        (takesNext_of_delivered hser hx hpre.1.dense hpre.2 hpost)⟩) hdelivered hstart
    intro x hx
    obtain ⟨-, -, hmakes⟩ := h.of_mem hx
    have hpre := (hinv.1 x hx).1
    exact takesNext_of_delivered hser hmakes hpre.1.dense hpre.2 (hdelivered x hx)
  · intro hnext
    have hinv := h.invariant_when
      (P := fun s => Published root s ∧ Follows query.afterSequence.toNat s)
      (fun x hx hx' hpre => ⟨published_step hx hpre.1, follows_step hser hx hpre.1 hpre.2 hx'⟩)
      hnext hstart
    intro x hx
    exact (hinv.1 x hx).2.2.delivered

def sampleEvent : AssistantTurnEventV1 :=
  { schemaVersion := "assistant-turn-contract/v1"
    eventType := "message"
    data := .object []
    timestamp := 0 }

/-- A thread without events, and a subscription to come. -/
def sampleStream : StreamState :=
  { log := ⟨0, []⟩
    outbox := []
    receiver := ⟨[], 0⟩
    phase := .requested
    cursor := 0
    sent := [] }

theorem sampleStream_fresh (limit : Int) : sampleStream.Fresh ⟨0, limit⟩ where
  dense := rfl
  outbox := fun _ he => absurd he List.not_mem_nil
  receiver := rfl
  phase := rfl
  cursor := rfl
  sent := rfl

/-- Three events are stored and broadcast before anyone subscribes. -/
def threeEvents : List StreamInput :=
  [ .append "thread" "id-1" "key-1" sampleEvent, .send 0,
    .append "thread" "id-2" "key-2" sampleEvent, .send 0,
    .append "thread" "id-3" "key-3" sampleEvent, .send 0 ]

/-- A page with all three events, and a live fourth one. -/
def wholePage : List StreamInput :=
  threeEvents ++ [ .subscribe, .readInitial true, .next, .next, .next, .next,
    .append "thread" "id-4" "key-4" sampleEvent, .send 0, .recv ]

theorem delivered_iff_takesNext_whole_page :
    ∃ tr s, Run (eventsMachine (fun _ => some "data") "thread" {}) sampleStream tr s ∧
      tr.map Move.input = wholePage ∧ sequences s.sent = [1, 2, 3, 4] ∧
      ∀ x ∈ tr, Delivered {} x.post := by
  obtain ⟨tr, s, hrun, hinputs, hcheck⟩ :=
    (eventsMachine (fun _ => some "data") "thread" {}).exists_run sampleStream wholePage
      (fun tr s => decide (sequences s.sent = [1, 2, 3, 4])
        && tr.all (fun x => x.pre.receiver.queue.all (fun message => x.pre.log.v1.all
          (fun e => decide (x.pre.cursor < e.sequence → message.event.sequence ≤ e.sequence)))))
      (by decide)
  simp only [Bool.and_eq_true, decide_eq_true_eq, List.all_eq_true] at hcheck
  obtain ⟨hsent, hnext⟩ := hcheck
  refine ⟨tr, s, hrun, hinputs, hsent, ?_⟩
  refine (delivered_iff_takesNext (fun _ => rfl) (sampleStream_fresh 200) hrun).mpr ?_
  intro x hx message htakes e he hlt
  obtain ⟨rest, hqueue⟩ := htakes.queue
  have hmem : message ∈ x.pre.receiver.queue := by
    rw [hqueue]
    exact List.mem_cons_self ..
  exact hnext x hx message hmem e he hlt

/-- The initial page has one of the three events, and a fourth is broadcast before
    the first poll. -/
def shortPage : List StreamInput :=
  threeEvents ++ [ .subscribe, .readInitial true, .next, .next,
    .append "thread" "id-4" "key-4" sampleEvent, .send 0, .recv, .tick, .readBacklog true, .next ]

theorem skipped_after_short_page :
    ∃ tr s, Run (eventsMachine (fun _ => some "data") "thread" ⟨0, 1⟩) sampleStream tr s ∧
      tr.map Move.input = shortPage ∧ sequences (s.log.v1After 0) = [1, 2, 3, 4] ∧
      sequences s.sent = [1, 4] ∧ ¬ ∀ x ∈ tr, Delivered ⟨0, 1⟩ x.post := by
  obtain ⟨tr, s, hrun, hinputs, hcheck⟩ :=
    (eventsMachine (fun _ => some "data") "thread" ⟨0, 1⟩).exists_run sampleStream shortPage
      (fun tr s => decide (sequences (s.log.v1After 0) = [1, 2, 3, 4])
        && decide (sequences s.sent = [1, 4])
        && tr.any (fun x => decide (sequences (durable x.post.sent) = [1, 4])
          && decide (sequences (x.post.log.v1After 0) = [1, 2, 3, 4]))) (by decide)
  simp only [Bool.and_eq_true, decide_eq_true_eq, List.any_eq_true] at hcheck
  obtain ⟨⟨hlog, hsent⟩, x, hx, hdurable, hafter⟩ := hcheck
  refine ⟨tr, s, hrun, hinputs, hlog, hsent, fun hall => ?_⟩
  have hprefix : sequences (durable x.post.sent) <+: sequences (x.post.log.v1After 0) :=
    (hall x hx).1
  rw [hdurable, hafter] at hprefix
  exact absurd hprefix (by decide)

end AiPlatform.Runtime
