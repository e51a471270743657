/-
  AiPlatform.Proxy.SseHeartbeat

  The heartbeats put into a proxied event stream (`sse_heartbeat.py`).

  The upstream is what the waits for its next item end with, one after another.  Chunks are
  lists of bytes, or of characters with `as_str`.
-/

import AiPlatform.Lib.ServerSentEvents

namespace AiPlatform.Proxy

open ServerSentEvents

/-- What a wait for the next item ends with. -/
inductive Wait (α : Type) where
  /-- The interval is over and the read goes on. -/
  | silence
  | item (chunk : List α)
  /-- `StopAsyncIteration` -/
  | stop
  /-- The upstream raises, and so does the wrapper. -/
  | fail

/-- What the wrapper yields. -/
inductive Yielded (α : Type) where
  | heartbeat
  | item (chunk : List α)
deriving DecidableEq

/-- The state between two waits; the trailing symbols are the last four. -/
structure FrameBoundary (α : Type) where
  atSseFrameBoundary : Bool := true
  trailing : List α := []

variable {α : Type} [DecidableEq α] (A : Alphabet α)

/-- `xs[-4:]` -/
def lastFour (xs : List α) : List α := xs.drop (xs.length - 4)

/-- `_update_frame_boundary` -/
def updateFrameBoundary (boundary : FrameBoundary α) (chunk : List α) : FrameBoundary α :=
  let trailing := lastFour (boundary.trailing ++ chunk)
  { atSseFrameBoundary :=
      [A.lf, A.lf].isSuffixOf trailing || [A.cr, A.lf, A.cr, A.lf].isSuffixOf trailing
    trailing := trailing }

/-- `with_sse_heartbeat` from one state on. -/
def heartbeatLoop (boundary : FrameBoundary α) : List (Wait α) → List (Yielded α)
  | [] => []
  | .silence :: waits =>
      if boundary.atSseFrameBoundary then .heartbeat :: heartbeatLoop boundary waits
      else heartbeatLoop boundary waits
  | .item chunk :: waits => .item chunk :: heartbeatLoop (updateFrameBoundary A boundary chunk) waits
  | .stop :: _ => []
  | .fail :: _ => []

/-- `with_sse_heartbeat` -/
def withSseHeartbeat (waits : List (Wait α)) : List (Yielded α) := heartbeatLoop A {} waits

/-- The chunks of the upstream. -/
def upstreamChunks : List (Wait α) → List (List α)
  | [] => []
  | .silence :: waits => upstreamChunks waits
  | .item chunk :: waits => chunk :: upstreamChunks waits
  | .stop :: _ => []
  | .fail :: _ => []

/-- The output without the heartbeats. -/
def forwardedChunks (output : List (Yielded α)) : List (List α) :=
  output.filterMap fun
    | .heartbeat => none
    | .item chunk => some chunk

/-- What goes out on the wire; a heartbeat is `: heartbeat` and an empty line. -/
def wire (output : List (Yielded α)) : List α :=
  output.flatMap fun
    | .heartbeat => A.text ": heartbeat\n\n"
    | .item chunk => chunk

/-! ## Where heartbeats stand -/

/-- The comment of a heartbeat. -/
def heartbeatComment : List α := A.text " heartbeat"

variable {A}

omit [DecidableEq α] in
theorem heartbeatComment_bare : ∀ x ∈ heartbeatComment A, x ≠ A.cr ∧ x ≠ A.lf := by
  have hall : (" heartbeat".toList.all fun c => decide (c.toNat < 128 ∧ c ≠ '\r' ∧ c ≠ '\n')) = true := by
    decide
  intro x hx
  obtain ⟨c, hc, rfl⟩ := List.mem_map.mp hx
  obtain ⟨hascii, hcr, hlf⟩ := of_decide_eq_true (List.all_eq_true.mp hall c hc)
  exact ⟨fun h => hcr (A.ascii_injective _ _ hascii (by decide) h),
    fun h => hlf (A.ascii_injective _ _ hascii (by decide) h)⟩

omit [DecidableEq α] in
theorem lastFour_lastFour (xs ys : List α) : lastFour (lastFour xs ++ ys) = lastFour (xs ++ ys) := by
  unfold lastFour
  rw [← List.drop_append_of_le_length (Nat.sub_le _ _), List.drop_drop]
  congr 1
  simp only [List.length_drop, List.length_append]
  omega

omit [DecidableEq α] in
theorem lastFour_suffix (xs : List α) : lastFour xs <:+ xs := List.drop_suffix _ _

/-- What the wrapper remembers of the symbols sent so far. -/
structure Remembers (boundary : FrameBoundary α) (sent : List α) : Prop where
  trailing : boundary.trailing = lastFour sent
  frame : boundary.atSseFrameBoundary = true → EndsFrame A sent

theorem remembers_update {boundary : FrameBoundary α} {sent : List α}
    (h : boundary.trailing = lastFour sent) (chunk : List α) :
    Remembers (A := A) (updateFrameBoundary A boundary chunk) (sent ++ chunk) := by
  have htrailing : (updateFrameBoundary A boundary chunk).trailing = lastFour (sent ++ chunk) := by
    rw [updateFrameBoundary, h, lastFour_lastFour]
  refine ⟨htrailing, fun hat => ?_⟩
  have hat : ([A.lf, A.lf].isSuffixOf (updateFrameBoundary A boundary chunk).trailing ||
      [A.cr, A.lf, A.cr, A.lf].isSuffixOf (updateFrameBoundary A boundary chunk).trailing) = true := hat
  rw [htrailing, Bool.or_eq_true, List.isSuffixOf_iff_suffix, List.isSuffixOf_iff_suffix] at hat
  exact hat.imp (·.trans (lastFour_suffix _)) (·.trans (lastFour_suffix _))

/-- From a state that remembers what was sent, heartbeats stand between the frames. -/
theorem padded_loop {boundary : FrameBoundary α} {sent : List α}
    (h : Remembers (A := A) boundary sent) (waits : List (Wait α)) :
    Padded A (heartbeatComment A) sent (upstreamChunks waits).flatten
      (wire A (heartbeatLoop A boundary waits)) := by
  induction waits generalizing boundary sent with
  | nil => exact .nil sent
  | cons wait waits ih =>
    cases wait with
    | silence =>
      rw [heartbeatLoop, upstreamChunks]
      split_ifs with hat
      · exact .pad (h.frame hat) (ih h)
      · exact ih h
    | item chunk =>
      rw [heartbeatLoop, upstreamChunks, List.flatten_cons]
      exact .copyAll chunk (ih (remembers_update h.trailing chunk))
    | stop => exact .nil sent
    | fail => exact .nil sent

/-- The silences before the first item. -/
def leadingSilences : List (Wait α) → Nat
  | .silence :: waits => leadingSilences waits + 1
  | _ => 0

/-- The heartbeats before the first chunk, and then those between the frames. -/
theorem padded_withSseHeartbeat (waits : List (Wait α)) :
    ∃ padded, wire A (withSseHeartbeat A waits) =
        (List.replicate (leadingSilences waits) (commentFrame A (heartbeatComment A))).flatten ++ padded ∧
      Padded A (heartbeatComment A) [] (upstreamChunks waits).flatten padded := by
  induction waits with
  | nil => exact ⟨[], rfl, .nil []⟩
  | cons wait waits ih =>
    cases wait with
    | silence =>
      obtain ⟨padded, hwire, hpadded⟩ := ih
      refine ⟨padded, ?_, hpadded⟩
      rw [leadingSilences, List.replicate_succ, List.flatten_cons, List.append_assoc, ← hwire]
      rfl
    | item chunk =>
      refine ⟨wire A (withSseHeartbeat A (.item chunk :: waits)), rfl, ?_⟩
      rw [withSseHeartbeat, heartbeatLoop, upstreamChunks, List.flatten_cons]
      exact .copyAll chunk (padded_loop (remembers_update rfl chunk) waits)
    | stop => exact ⟨[], rfl, .nil []⟩
    | fail => exact ⟨[], rfl, .nil []⟩

theorem forwardedChunks_loop (boundary : FrameBoundary α) (waits : List (Wait α)) :
    forwardedChunks (heartbeatLoop A boundary waits) = upstreamChunks waits := by
  induction waits generalizing boundary with
  | nil => rfl
  | cons wait waits ih =>
    cases wait with
    | silence =>
      rw [heartbeatLoop, upstreamChunks]
      split_ifs
      · exact ih boundary
      · exact ih boundary
    | item chunk =>
      rw [heartbeatLoop, upstreamChunks]
      exact congrArg (chunk :: ·) (ih _)
    | stop => rfl
    | fail => rfl

/-- The output without its heartbeats is the upstream; and its events are the upstream's
    exactly when no heartbeat comes before a byte order mark that matters. -/
theorem heartbeats_invisible_iff (waits : List (Wait α)) :
    (forwardedChunks (withSseHeartbeat A waits) = upstreamChunks waits ∧
      events A (wire A (withSseHeartbeat A waits)) = events A (upstreamChunks waits).flatten) ↔
    (leadingSilences waits = 0 ∨
      eventsWithMark A (upstreamChunks waits).flatten = events A (upstreamChunks waits).flatten) := by
  have hforwarded : forwardedChunks (withSseHeartbeat A waits) = upstreamChunks waits :=
    forwardedChunks_loop {} waits
  rw [and_iff_right hforwarded]
  obtain ⟨padded, hwire, hpadded⟩ := padded_withSseHeartbeat (A := A) waits
  rw [hwire]
  cases hsilences : leadingSilences waits with
  | zero => exact iff_of_true (events_padded heartbeatComment_bare hpadded) (.inl rfl)
  | succ n =>
    rw [events_comments_padded heartbeatComment_bare hpadded n]
    exact ⟨.inr, fun h => h.resolve_left (Nat.succ_ne_zero n)⟩

/-- A stream with a byte order mark, whose first chunk comes after one interval: its event
    is lost. -/
theorem event_behind_mark_is_lost :
    let waits : List (Wait UInt8) := [.silence, .item (bytes.mark ++ bytes.text "data: a\n\n"), .stop]
    events bytes (upstreamChunks waits).flatten =
        [{ type := bytes.text "message", data := bytes.text "a", lastEventId := [] }] ∧
      events bytes (wire bytes (withSseHeartbeat bytes waits)) = [] := by
  decide +kernel

end AiPlatform.Proxy
