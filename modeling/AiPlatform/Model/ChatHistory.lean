/-
  AiPlatform.Model.ChatHistory

  When the translated input is a legal chat history.

  The translation is followed entry by entry. As long as the calls are answered in place the
  messages are a legal history and one group that is still open; the first entry that comes in
  between closes the group for good, with a call that has no answer.
-/

import AiPlatform.Model.ChatMessages
import Mathlib.Data.List.Induction

namespace ChatMessages

open ModelPlane RequestBuilder

/-! ## Legal histories -/

/-- No tool message comes first. -/
def NoAnswerFirst (messages : List ChatMessage) : Prop := ∀ message ∈ messages.head?, message.answers = none

theorem noAnswerFirst_cons {message : ChatMessage} (h : message.answers = none) (rest : List ChatMessage) :
    NoAnswerFirst (message :: rest) := by
  intro first hmem
  obtain rfl := Option.some.inj hmem
  exact h

theorem Legal.noAnswerFirst {messages : List ChatMessage} (h : Legal messages) : NoAnswerFirst messages := by
  cases h with
  | nil => exact fun _ hmem => by cases hmem
  | content role content _ => exact noAnswerFirst_cons rfl _
  | calls _ _ _ _ _ => exact noAnswerFirst_cons rfl _

theorem Legal.append {first second : List ChatMessage} (h : Legal first) (h' : Legal second) :
    Legal (first ++ second) := by
  induction h with
  | nil => exact h'
  | content role content _ ih => exact ih.content role content
  | calls hne hdistinct htool hanswers _ ih =>
    rw [List.append_assoc]
    exact Legal.calls hne hdistinct htool hanswers ih

/-- The answers that follow a message end where the next message of another kind stands. -/
theorem answers_unique {answers answers' rest rest' : List ChatMessage} (h : answers ++ rest = answers' ++ rest')
    (htool : ∀ message ∈ answers, message.answers.isSome) (htool' : ∀ message ∈ answers', message.answers.isSome)
    (hrest : NoAnswerFirst rest) (hrest' : NoAnswerFirst rest') : answers = answers' ∧ rest = rest' := by
  induction answers generalizing answers' with
  | nil =>
    cases answers' with
    | nil => exact ⟨rfl, h⟩
    | cons message answers' =>
      rw [List.nil_append] at h
      have hnone := hrest message (by rw [h]; rfl)
      have hsome := htool' message List.mem_cons_self
      rw [hnone] at hsome
      cases hsome
  | cons message answers ih =>
    cases answers' with
    | nil =>
      rw [List.nil_append] at h
      have hnone := hrest' message (by rw [← h]; rfl)
      have hsome := htool message List.mem_cons_self
      rw [hnone] at hsome
      cases hsome
    | cons message' answers' =>
      obtain ⟨rfl, htail⟩ := List.cons.inj h
      obtain ⟨rfl, hrests⟩ := ih htail (fun m hm => htool m (List.mem_cons_of_mem _ hm))
        fun m hm => htool' m (List.mem_cons_of_mem _ hm)
      exact ⟨rfl, hrests⟩

theorem legal_calls_iff {toolCalls : List ToolCall} {answers rest : List ChatMessage}
    (htool : ∀ message ∈ answers, message.answers.isSome) (hrest : NoAnswerFirst rest) :
    Legal (.calls toolCalls :: answers ++ rest) ↔
      toolCalls ≠ [] ∧ (toolCalls.map ToolCall.id).Nodup ∧
        (answers.filterMap ChatMessage.answers).Perm (toolCalls.map ToolCall.asks) ∧ Legal rest := by
  constructor
  · intro h
    generalize hall : (.calls toolCalls :: answers ++ rest : List ChatMessage) = messages at h
    cases h with
    | nil => cases hall
    | content role content _ => cases hall
    | calls hne hdistinct htool' hanswers hlegal =>
      obtain ⟨hcalls, htail⟩ := List.cons.inj hall
      cases hcalls
      obtain ⟨rfl, rfl⟩ := answers_unique htail htool htool' hrest hlegal.noAnswerFirst
      exact ⟨hne, hdistinct, hanswers, hlegal⟩
  · rintro ⟨hne, hdistinct, hanswers, hlegal⟩
    exact Legal.calls hne hdistinct htool hanswers hlegal

/-- What a legal history goes on with is legal by itself. -/
theorem Legal.of_append {settled rest : List ChatMessage} (hsettled : Legal settled) (hrest : NoAnswerFirst rest)
    (h : Legal (settled ++ rest)) : Legal rest := by
  induction hsettled with
  | nil => exact h
  | content role content _ ih =>
    cases h with
    | content _ _ h => exact ih h
  | @calls toolCalls answers later hne hdistinct htool hanswers hlater ih =>
    have hfirst : NoAnswerFirst (later ++ rest) := by
      cases later with
      | nil => exact hrest
      | cons message later => exact hlater.noAnswerFirst
    rw [List.append_assoc, legal_calls_iff htool hfirst] at h
    exact ih h.2.2.2

theorem getLast?_cons_of_ne_nil {message : ChatMessage} {rest : List ChatMessage} (hrest : rest ≠ []) :
    (message :: rest).getLast? = rest.getLast? :=
  List.getLast?_append_of_ne_nil [message] hrest

/-- The last message of a legal history does not ask for anything. -/
theorem Legal.getLast?_ne_calls {messages : List ChatMessage} (h : Legal messages) (toolCalls : List ToolCall) :
    messages.getLast? ≠ some (.calls toolCalls) := by
  induction h with
  | nil => exact fun hlast => by cases hlast
  | @content role content rest _ ih =>
    by_cases hnil : rest = []
    · rw [hnil]
      exact fun hlast => by cases hlast
    · rw [getLast?_cons_of_ne_nil hnil]
      exact ih
  | @calls asked answers rest hne _ htool hanswers _ ih =>
    have hanswered : answers ≠ [] := by
      rintro rfl
      exact hne (List.map_eq_nil_iff.mp (List.nil_perm.mp hanswers))
    by_cases hnil : rest = []
    · rw [hnil, List.append_nil, getLast?_cons_of_ne_nil hanswered]
      intro hlast
      cases htool _ (List.mem_of_getLast? hlast)
    · rw [List.getLast?_append_of_ne_nil _ hnil]
      exact ih

/-! ## What the translation does with an entry -/

/-- The item has what its type asks for, as the transcript was checked. -/
def Checked (item : PyJson) : Prop :=
  ((item.get (lit "type")).isStr (lit "function_call") = true → (callOf item).isSome) ∧
    ((item.get (lit "type")).isStr (lit "function_call_output") = true → (outputOf item).isSome)

/-- The history after an entry. -/
inductive Applied : Option Entry → History → History → Prop
  | skip (history : History) : Applied none history history
  | message (role : PyStr) (content : Content) (history : History) :
      Applied (some (.message role content)) history
        { history with messages := history.messages ++ [.content role content] }
  | call (call : ToolCall) (history : History) (hfresh : history.pendingCalls.lookup call.id = none) :
      Applied (some (.call call)) history
        { messages := addCall history.messages call
          pendingCalls := history.pendingCalls ++ [(call.id, call.name)] }
  | output (callId name text : PyStr) (history : History) (hpending : history.pendingCalls.lookup callId = some name) :
      Applied (some (.output callId text)) history
        { messages := history.messages ++ [.tool callId name (some text)]
          pendingCalls := history.pendingCalls.filter fun pending => pending.1 != callId }

variable {reprOf : PyJson → PyStr}

theorem chatContent_content {role : PyStr} {rawContent : PyJson} {message : ChatMessage}
    (h : chatContent role rawContent = .ok (some message)) : ∃ role content, message = .content role content := by
  unfold chatContent at h
  cases htext : contentText rawContent with
  | error error =>
    rw [htext] at h
    cases h
  | ok text =>
    rw [htext] at h
    simp only [bind, Except.bind] at h
    split at h
    · cases h
    · split at h
      · cases h
      · obtain rfl := Option.some.inj (Except.ok.inj h)
        exact ⟨_, _, rfl⟩

theorem chatText_content {item : PyJson} {message : ChatMessage} (h : chatText item = .ok (some message)) :
    ∃ role content, message = .content role content := by
  unfold chatText at h
  split at h
  · exact chatContent_content h
  · split at h <;> cases h

/-- Each item of a checked transcript is translated as the entry that it stands for. -/
theorem translateItem_applied {history history' : History} {item : PyJson} (hchecked : Checked item)
    (h : translateItem reprOf history item = .ok history') : Applied (entryOf item) history history' := by
  unfold translateItem at h
  unfold entryOf
  dsimp only at h ⊢
  split at h
  · cases h
  split at h
  · cases h
  split at h
  · case isTrue hmessage =>
    rw [if_pos hmessage]
    cases htext : chatText item with
    | error error =>
      rw [htext] at h
      cases h
    | ok message =>
      rw [htext] at h
      obtain rfl := Except.ok.inj h
      rw [messageOf, htext]
      cases message with
      | none =>
        dsimp only
        rw [Option.toList_none, List.append_nil]
        exact .skip history
      | some message =>
        obtain ⟨role, content, rfl⟩ := chatText_content htext
        exact .message role content history
  · case isFalse hmessage =>
    rw [if_neg hmessage]
    split at h
    · case isTrue hcall =>
      rw [if_pos hcall]
      have hsome := hchecked.1 hcall
      unfold translateCall at h
      unfold callOf at hsome ⊢
      split at hsome
      · case h_1 callId name arguments hid hname harguments =>
        rw [hid, hname, harguments] at h
        dsimp only [strOr] at h
        by_cases hempty : callId = [] ∨ name = []
        · rw [if_pos hempty] at h
          cases h
        cases hfresh : history.pendingCalls.lookup callId with
        | some waiting =>
          rw [if_neg hempty, hfresh] at h
          cases h
        | none =>
          rw [if_neg hempty, hfresh] at h
          obtain rfl := Except.ok.inj h
          exact .call ⟨callId, name, arguments⟩ history hfresh
      · cases hsome
    · case isFalse hcall =>
      rw [if_neg hcall]
      split at h
      · case isTrue houtput =>
        rw [if_pos houtput]
        have hsome := hchecked.2 houtput
        unfold translateOutput at h
        unfold outputOf at hsome ⊢
        split at hsome
        · case h_1 callId text hid htext =>
          rw [hid, htext] at h
          dsimp only [strOr] at h
          cases hpending : history.pendingCalls.lookup callId with
          | none =>
            rw [hpending] at h
            cases h
          | some name =>
            rw [hpending] at h
            obtain rfl := Except.ok.inj h
            exact .output callId name text history hpending
        · cases hsome
      · case isFalse houtput =>
        rw [if_neg houtput]
        obtain rfl := Except.ok.inj h
        exact .skip history

/-! ## The transcript is checked first -/

theorem foldlM_forall {σ α ε : Type} {step : σ → α → Except ε σ} {items : List α} {first last : σ}
    (h : items.foldlM step first = .ok last) : ∀ item ∈ items, ∃ before after, step before item = .ok after := by
  induction items generalizing first with
  | nil => exact fun _ hmem => absurd hmem List.not_mem_nil
  | cons item items ih =>
    rw [List.foldlM_cons] at h
    cases hstep : step first item with
    | error error =>
      rw [hstep] at h
      cases h
    | ok next =>
      rw [hstep] at h
      exact List.forall_mem_cons.mpr ⟨⟨first, next, hstep⟩, ih h⟩

variable {allowedToolNames : Option (List PyStr)} {allowedNamespacedTools : Option (List (PyStr × PyStr))}

theorem validateCall_callOf {state state' : Transcript} {item : PyJson}
    (h : validateCall allowedToolNames allowedNamespacedTools state item = .ok state') : (callOf item).isSome := by
  unfold validateCall at h
  dsimp only at h
  have hrefused : ∀ {item : PyJson}, (if (item.get (lit "call_id")).hashable then transcriptInvalid else typeError :
      Except Raised Transcript) ≠ .ok state' := by
    intro item heq
    split at heq <;> cases heq
  split at h
  · case h_1 hid hname harguments =>
    unfold callOf
    rw [hid, hname, harguments]
    rfl
  · exact absurd h hrefused

theorem validateOutput_outputOf {state state' : Transcript} {item : PyJson} (h : validateOutput state item = .ok state') :
    (outputOf item).isSome := by
  unfold validateOutput at h
  unfold outputOf
  cases hid : item.get (lit "call_id") with
  | str callId =>
    rw [hid] at h
    dsimp only at h ⊢
    split at h
    · cases h
    · cases htext : toolOutputText (item.get (lit "output")) with
      | error error =>
        rw [htext] at h
        cases h
      | ok text =>
        rw [htext] at h
        cases text with
        | none => cases h
        | some text => rfl
  | _ =>
    rw [hid] at h
    cases h

theorem validateItem_checked {state state' : Transcript} {item : PyJson}
    (h : validateItem allowedToolNames allowedNamespacedTools state item = .ok state') : Checked item := by
  unfold validateItem at h
  dsimp only at h
  refine ⟨fun hcall => ?_, fun houtput => ?_⟩
  · rw [if_pos hcall] at h
    exact validateCall_callOf h
  · split at h
    · case isTrue hcall => exact absurd (PyJson.eq_of_isStr hcall houtput) (by decide)
    · exact validateOutput_outputOf h

theorem validateToolTranscript_checked {rawInput : List PyJson}
    (h : validateToolTranscript allowedToolNames allowedNamespacedTools rawInput = .ok ()) :
    ∀ item ∈ rawInput, Checked item := by
  unfold validateToolTranscript at h
  cases hrun : rawInput.foldlM (validateItem allowedToolNames allowedNamespacedTools) ⟨[], []⟩ with
  | error error =>
    rw [hrun] at h
    cases h
  | ok state =>
    intro item hmem
    obtain ⟨before, after, hstep⟩ := foldlM_forall hrun item hmem
    exact validateItem_checked hstep

/-! ## The run over the input -/

/-- The histories that a list of entries leads to. -/
inductive Run (instructions : List ChatMessage) : List Entry → History → Prop
  | start : Run instructions [] ⟨instructions, []⟩
  | step {entries : List Entry} {history history' : History} {entry : Option Entry} :
      Run instructions entries history → Applied entry history history' →
      Run instructions (entries ++ entry.toList) history'

theorem translateItems_run {instructions : List ChatMessage} {rawInput : List PyJson} {history : History}
    (hchecked : ∀ item ∈ rawInput, Checked item)
    (h : translateItems reprOf instructions rawInput = .ok history) :
    Run instructions (rawInput.filterMap entryOf) history := by
  unfold translateItems at h
  induction rawInput using List.reverseRecOn generalizing history with
  | nil =>
    obtain rfl := Except.ok.inj h
    exact .start
  | append_singleton rawInput item ih =>
    rw [List.foldlM_append] at h
    cases hrun : rawInput.foldlM (translateItem reprOf) ⟨instructions, []⟩ with
    | error error =>
      rw [hrun] at h
      cases h
    | ok middle =>
      rw [hrun] at h
      have hstep : translateItem reprOf middle item = .ok history := by
        change (translateItem reprOf middle item >>= fun next => pure next) = .ok history at h
        rwa [bind_pure] at h
      have happlied := translateItem_applied (hchecked item (by simp)) hstep
      have hbefore := ih (fun item hmem => hchecked item (List.mem_append_left _ hmem)) hrun
      have hsplit : (rawInput ++ [item]).filterMap entryOf = rawInput.filterMap entryOf ++ (entryOf item).toList := by
        rw [List.filterMap_append]
        cases hentry : entryOf item <;> simp [hentry]
      rw [hsplit]
      exact hbefore.step happlied

/-! ## The calls that wait -/

section

variable {pending : List (PyStr × PyStr)} {callId name : PyStr}

theorem not_mem_of_lookup_eq_none (h : pending.lookup callId = none) : callId ∉ pending.map Prod.fst := by
  induction pending with
  | nil => exact List.not_mem_nil
  | cons first pending ih =>
    rw [List.lookup_cons] at h
    split at h
    · cases h
    · case h_2 hne =>
      rw [List.map_cons, List.mem_cons, not_or]
      exact ⟨by simpa using hne, ih h⟩

theorem lookup_perm (hdistinct : (pending.map Prod.fst).Nodup) (h : pending.lookup callId = some name) :
    pending.Perm ((callId, name) :: pending.filter fun entry => entry.1 != callId) := by
  induction pending with
  | nil => cases h
  | cons first pending ih =>
    obtain ⟨hfirst, hrest⟩ := List.nodup_cons.mp hdistinct
    rw [List.lookup_cons] at h
    split at h
    · case h_1 heq =>
      obtain rfl := Option.some.inj h
      obtain rfl : callId = first.1 := by simpa using heq
      have hkept : (pending.filter fun entry => entry.1 != first.1) = pending := by
        refine List.filter_eq_self.mpr fun entry hmem => ?_
        have hne : entry.1 ≠ first.1 := fun heq => hfirst (heq ▸ List.mem_map_of_mem hmem)
        simpa using hne
      rw [List.filter_cons_of_neg (by simp), hkept]
    · case h_2 hne =>
      have hkeep : (first.1 != callId) = true := bne_iff_ne.mpr (beq_eq_false_iff_ne.mp hne).symm
      rw [List.filter_cons, if_pos hkeep]
      exact ((ih hrest h).cons first).trans (List.Perm.swap _ _ _)

end

theorem addCall_cases (messages : List ChatMessage) (call : ToolCall) :
    (∃ front toolCalls, messages = front ++ [.calls toolCalls] ∧
        addCall messages call = front ++ [.calls (toolCalls ++ [call])]) ∨
      ((∀ toolCalls, messages.getLast? ≠ some (.calls toolCalls)) ∧ addCall messages call = messages ++ [.calls [call]]) := by
  unfold addCall
  split
  · case h_1 toolCalls hlast =>
    obtain ⟨front, rfl⟩ := List.getLast?_eq_some_iff.mp hlast
    exact .inl ⟨front, toolCalls, rfl, by rw [List.dropLast_concat]⟩
  · case h_2 hother => exact .inr ⟨hother, rfl⟩

/-! ## Every entry is there, in order -/

def ChatMessage.toolCalls : ChatMessage → List ToolCall
  | .calls toolCalls => toolCalls
  | _ => []

def ChatMessage.output : ChatMessage → Option (PyStr × Option PyStr)
  | .tool callId _ text => some (callId, text)
  | _ => none

def ChatMessage.text : ChatMessage → Option (PyStr × Content)
  | .content role shown => some (role, shown)
  | _ => none

def Entry.toolCall : Entry → Option ToolCall
  | .call asked => some asked
  | _ => none

def Entry.outputText : Entry → Option (PyStr × Option PyStr)
  | .output callId text => some (callId, some text)
  | _ => none

def Entry.text : Entry → Option (PyStr × Content)
  | .message role content => some (role, content)
  | _ => none

theorem filterMap_one {α β : Type} (f : α → Option β) (x : α) : [x].filterMap f = (f x).toList := by
  cases hx : f x <;> simp [hx]

/-- Calls, outputs and texts stand in the messages as they stand in the input. -/
structure Holds (instructions : List ChatMessage) (entries : List Entry) (messages : List ChatMessage) : Prop where
  calls : messages.flatMap ChatMessage.toolCalls = entries.filterMap Entry.toolCall
  outputs : messages.filterMap ChatMessage.output = entries.filterMap Entry.outputText
  texts : messages.filterMap ChatMessage.text =
    instructions.filterMap ChatMessage.text ++ entries.filterMap Entry.text

variable {instructions : List ChatMessage} {entries : List Entry} {history : History}

theorem Holds.append {messages : List ChatMessage} (h : Holds instructions entries messages) {entry : Entry}
    {message : ChatMessage} (hcalls : message.toolCalls = entry.toolCall.toList) (houtput : message.output = entry.outputText)
    (htext : message.text = entry.text) : Holds instructions (entries ++ [entry]) (messages ++ [message]) where
  calls := by
    rw [List.flatMap_append, List.filterMap_append, h.calls, List.flatMap_singleton, filterMap_one, hcalls]
  outputs := by
    rw [List.filterMap_append, List.filterMap_append, h.outputs, filterMap_one, filterMap_one, houtput]
  texts := by
    rw [List.filterMap_append, List.filterMap_append, h.texts, filterMap_one, filterMap_one, htext,
      List.append_assoc]

theorem Holds.addCall {messages : List ChatMessage} (h : Holds instructions entries messages) (call : ToolCall) :
    Holds instructions (entries ++ [.call call]) (addCall messages call) := by
  rcases addCall_cases messages call with ⟨front, toolCalls, rfl, hadd⟩ | ⟨-, hadd⟩
  · have hcalls := h.calls
    have houtputs := h.outputs
    have htexts := h.texts
    rw [List.flatMap_append, List.flatMap_singleton] at hcalls
    rw [List.filterMap_append] at houtputs htexts
    rw [hadd]
    refine ⟨?_, ?_, ?_⟩
    · rw [List.flatMap_append, List.flatMap_singleton, List.filterMap_append, ← hcalls, filterMap_one, List.append_assoc]
      rfl
    · rw [List.filterMap_append, List.filterMap_append, ← houtputs, filterMap_one, filterMap_one, filterMap_one,
        List.append_assoc]
      rfl
    · rw [List.filterMap_append, List.filterMap_append, ← List.append_assoc, ← htexts, filterMap_one, filterMap_one,
        filterMap_one, List.append_assoc]
      rfl
  · rw [hadd]
    exact h.append rfl rfl rfl

/-- The instructions are texts. -/
def AreTexts (messages : List ChatMessage) : Prop := ∀ message ∈ messages, ∃ role content, message = .content role content

theorem Run.holds (hinstructions : AreTexts instructions) (h : Run instructions entries history) :
    Holds instructions entries history.messages := by
  induction h with
  | start =>
    refine ⟨?_, ?_, by simp⟩
    · refine List.flatMap_eq_nil_iff.mpr fun message hmem => ?_
      obtain ⟨role, content, rfl⟩ := hinstructions message hmem
      rfl
    · refine List.filterMap_eq_nil_iff.mpr fun message hmem => ?_
      obtain ⟨role, content, rfl⟩ := hinstructions message hmem
      rfl
  | step _ happlied ih =>
    cases happlied with
    | skip =>
      rw [Option.toList_none, List.append_nil]
      exact ih
    | message role content => exact ih.append rfl rfl rfl
    | call call _ => exact ih.addCall call
    | output callId name text _ => exact ih.append rfl rfl rfl

/-! ## Open groups and broken ones -/

/-- A legal history, and the group that still waits for answers if a call is open. -/
inductive Open : List ChatMessage → List (PyStr × PyStr) → Prop
  | settled {messages : List ChatMessage} : Legal messages → Open messages []
  | group {settled answers : List ChatMessage} {toolCalls : List ToolCall} {pending : List (PyStr × PyStr)}
      (hsettled : Legal settled) (hne : toolCalls ≠ []) (hdistinct : (toolCalls.map ToolCall.id).Nodup)
      (htool : ∀ message ∈ answers, message.answers.isSome)
      (hanswers : (answers.filterMap ChatMessage.answers ++ pending).Perm (toolCalls.map ToolCall.asks))
      (hpending : pending ≠ []) : Open (settled ++ .calls toolCalls :: answers) pending

/-- A group that was closed before its calls were answered. -/
inductive Broken : List ChatMessage → Prop
  | intro {settled answers later : List ChatMessage} {toolCalls : List ToolCall} {next : ChatMessage}
      (hsettled : Legal settled) (htool : ∀ message ∈ answers, message.answers.isSome) (hnext : next.answers = none)
      (hanswers : ¬ (answers.filterMap ChatMessage.answers).Perm (toolCalls.map ToolCall.asks)) :
      Broken (settled ++ .calls toolCalls :: answers ++ next :: later)

theorem Broken.not_legal {messages : List ChatMessage} (h : Broken messages) : ¬ Legal messages := by
  cases h with
  | @intro settled answers later toolCalls next hsettled htool hnext hanswers =>
    intro hlegal
    rw [List.append_assoc] at hlegal
    have hgroup := hsettled.of_append (noAnswerFirst_cons rfl _) hlegal
    exact hanswers ((legal_calls_iff htool (noAnswerFirst_cons hnext later)).mp hgroup).2.2.1

theorem Broken.append {messages : List ChatMessage} (h : Broken messages) (more : List ChatMessage) :
    Broken (messages ++ more) := by
  cases h with
  | intro hsettled htool hnext hanswers =>
    rw [List.append_assoc, List.cons_append]
    exact .intro hsettled htool hnext hanswers

theorem Broken.addCall {messages : List ChatMessage} (h : Broken messages) (call : ToolCall) :
    Broken (addCall messages call) := by
  rcases addCall_cases messages call with ⟨front, asked, hfront, hadd⟩ | ⟨-, hadd⟩
  · rw [hadd]
    cases h with
    | @intro settled answers later toolCalls next hsettled htool hnext hanswers =>
      rcases List.eq_nil_or_concat' later with rfl | ⟨later, last, rfl⟩
      · obtain ⟨rfl, -⟩ := List.append_inj' hfront rfl
        exact .intro hsettled htool rfl hanswers
      · rw [← List.cons_append, ← List.append_assoc] at hfront
        obtain ⟨rfl, -⟩ := List.append_inj' hfront rfl
        rw [List.append_assoc, List.cons_append]
        exact .intro hsettled htool hnext hanswers
  · rw [hadd]
    exact h.append _

theorem Open.legal {messages : List ChatMessage} (h : Open messages []) : Legal messages := by
  generalize hpending : ([] : List (PyStr × PyStr)) = pending at h
  cases h with
  | settled hlegal => exact hlegal
  | group _ _ _ _ _ hne => exact absurd hpending.symm hne

/-- A message of another kind breaks the group that is open. -/
theorem Open.broken {messages : List ChatMessage} {pending : List (PyStr × PyStr)} (h : Open messages pending)
    (hpending : pending ≠ []) {next : ChatMessage} (hnext : next.answers = none) : Broken (messages ++ [next]) := by
  cases h with
  | settled _ => exact absurd rfl hpending
  | group hsettled hne hdistinct htool hanswers _ =>
    refine .intro hsettled htool hnext fun hperm => ?_
    have hlength := hanswers.length_eq
    rw [List.length_append, hperm.length_eq] at hlength
    exact hpending (List.length_eq_zero_iff.mp (by omega))

theorem Legal.single_group {toolCalls : List ToolCall} {answers : List ChatMessage} (hne : toolCalls ≠ [])
    (hdistinct : (toolCalls.map ToolCall.id).Nodup) (htool : ∀ message ∈ answers, message.answers.isSome)
    (hanswers : (answers.filterMap ChatMessage.answers).Perm (toolCalls.map ToolCall.asks)) :
    Legal (.calls toolCalls :: answers) := by
  have h := Legal.calls hne hdistinct htool hanswers .nil
  rwa [List.append_nil] at h

/-- An output answers its call, and settles the group if it was the last one. -/
theorem Open.output {messages : List ChatMessage} {pending : List (PyStr × PyStr)} (h : Open messages pending)
    (hdistinct : (pending.map Prod.fst).Nodup) {callId name : PyStr} (hlookup : pending.lookup callId = some name)
    (text : Option PyStr) :
    Open (messages ++ [.tool callId name text]) (pending.filter fun entry => entry.1 != callId) := by
  cases h with
  | settled _ => cases hlookup
  | @group settled answers toolCalls _ hsettled hne hids htool hanswers hpending =>
    have hwaiting := lookup_perm hdistinct hlookup
    generalize (pending.filter fun entry => entry.1 != callId) = waiting at hwaiting
    have htool' : ∀ message ∈ answers ++ [ChatMessage.tool callId name text], message.answers.isSome := by
      intro message hmem
      rcases List.mem_append.mp hmem with hmem | hmem
      · exact htool message hmem
      · rw [List.mem_singleton.mp hmem]
        rfl
    have hanswers' : ((answers ++ [ChatMessage.tool callId name text]).filterMap ChatMessage.answers ++ waiting).Perm
        (toolCalls.map ToolCall.asks) := by
      rw [List.filterMap_append, filterMap_one, List.append_assoc]
      exact (hwaiting.symm.append_left _).trans hanswers
    rw [List.append_assoc, List.cons_append]
    by_cases hnil : waiting = []
    · subst hnil
      rw [List.append_nil] at hanswers'
      exact .settled (hsettled.append (.single_group hne hids htool' hanswers'))
    · exact .group hsettled hne hids htool' hanswers' hnil

/-- A call joins the group if nothing was answered since, or begins one if none is open. -/
theorem Open.call {messages : List ChatMessage} {pending : List (PyStr × PyStr)} (h : Open messages pending)
    {call : ToolCall} (hfresh : pending.lookup call.id = none)
    (hnext : pending ≠ [] → ∃ toolCalls, messages.getLast? = some (.calls toolCalls)) :
    Open (addCall messages call) (pending ++ [(call.id, call.name)]) := by
  rcases addCall_cases messages call with ⟨front, asked, hfront, hadd⟩ | ⟨hother, hadd⟩
  · rw [hadd]
    cases h with
    | settled hlegal => exact absurd (by rw [hfront]; simp) (hlegal.getLast?_ne_calls asked)
    | @group settled answers toolCalls _ hsettled hne hids htool hanswers hpending =>
      rcases List.eq_nil_or_concat' answers with rfl | ⟨answers, last, rfl⟩
      · obtain ⟨rfl, hlast⟩ := List.append_inj' hfront rfl
        obtain rfl := ChatMessage.calls.inj (List.head_eq_of_cons_eq hlast)
        rw [List.filterMap_nil, List.nil_append] at hanswers
        refine .group hsettled (by simp) ?_ (by simp) ?_ (by simp)
        · have hnew : call.id ∉ toolCalls.map ToolCall.id := by
            have hwaiting := not_mem_of_lookup_eq_none hfresh
            have hsame := (hanswers.map Prod.fst).mem_iff (a := call.id)
            rw [List.map_map] at hsame
            exact fun hmem => hwaiting (hsame.mpr hmem)
          rw [List.map_append, List.nodup_append]
          refine ⟨hids, by simp, fun x hx y hy heq => hnew ?_⟩
          rw [← List.mem_singleton.mp hy, ← heq]
          exact hx
        · rw [List.filterMap_nil, List.nil_append, List.map_append]
          exact hanswers.append_right _
      · rw [← List.cons_append, ← List.append_assoc] at hfront
        obtain ⟨-, hlast⟩ := List.append_inj' hfront rfl
        obtain rfl := List.head_eq_of_cons_eq hlast
        cases htool (.calls asked) (by simp)
  · rw [hadd]
    cases h with
    | settled hlegal =>
      have hanswers : (([] : List ChatMessage).filterMap ChatMessage.answers ++ [(call.id, call.name)]).Perm
          ([call].map ToolCall.asks) := List.Perm.refl _
      exact Open.group hlegal (List.cons_ne_nil _ _) (by simp) (by simp) hanswers (List.cons_ne_nil _ _)
    | group _ _ _ _ _ hpending =>
      obtain ⟨toolCalls, hlast⟩ := hnext hpending
      exact absurd hlast (hother toolCalls)

/-! ## Every run -/

/-- What waits is what the input still asks for. -/
structure Waits (entries : List Entry) (history : History) : Prop where
  distinct : (history.pendingCalls.map Prod.fst).Nodup
  count : history.pendingCalls.length + entries.countP Entry.isOutput = entries.countP Entry.isCall
  last : (∃ toolCalls, history.messages.getLast? = some (.calls toolCalls)) ↔
    ∃ last ∈ entries.getLast?, last.isCall = true

theorem Waits.hasOpenCall_iff (h : Waits entries history) : HasOpenCall entries ↔ history.pendingCalls ≠ [] := by
  have hcount := h.count
  rw [HasOpenCall, ← List.length_pos_iff]
  omega

theorem getLast?_addCall (messages : List ChatMessage) (call : ToolCall) :
    ∃ toolCalls, (addCall messages call).getLast? = some (.calls toolCalls) := by
  rcases addCall_cases messages call with ⟨front, toolCalls, -, hadd⟩ | ⟨-, hadd⟩
  · exact ⟨toolCalls ++ [call], by rw [hadd]; simp⟩
  · exact ⟨[call], by rw [hadd]; simp⟩

theorem Run.waits (hinstructions : AreTexts instructions) (h : Run instructions entries history) :
    Waits entries history := by
  induction h with
  | start =>
    refine ⟨by simp, rfl, iff_of_false ?_ (by simp)⟩
    rintro ⟨toolCalls, hlast⟩
    obtain ⟨role, content, heq⟩ := hinstructions _ (List.mem_of_getLast? hlast)
    cases heq
  | @step entries before _ _ _ happlied ih =>
    cases happlied with
    | skip =>
      rw [Option.toList_none, List.append_nil]
      exact ih
    | message role content =>
      refine ⟨ih.distinct, ?_, iff_of_false (by simp) (by simp [Entry.isCall])⟩
      rw [Option.toList_some, List.countP_append, List.countP_append]
      exact ih.count
    | call call _ hfresh =>
      refine ⟨?_, ?_, iff_of_true (getLast?_addCall _ _) (by simp [Entry.isCall])⟩
      · have hnew := not_mem_of_lookup_eq_none hfresh
        rw [List.map_append, List.nodup_append]
        refine ⟨ih.distinct, by simp, fun x hx y hy heq => hnew ?_⟩
        obtain rfl : y = call.id := by simpa using hy
        rwa [heq] at hx
      · have hcount := ih.count
        rw [Option.toList_some, List.countP_append, List.countP_append, List.length_append]
        simp only [List.countP_singleton, Entry.isCall, Entry.isOutput, List.length_singleton]
        simp only [Bool.false_eq_true, if_false, if_true]
        omega
    | output callId name text _ hpending =>
      refine ⟨?_, ?_, iff_of_false (by simp) (by simp [Entry.isCall])⟩
      · exact ih.distinct.sublist (List.filter_sublist.map _)
      · have hcount := ih.count
        have hlength := (lookup_perm ih.distinct hpending).length_eq
        rw [List.length_cons] at hlength
        rw [Option.toList_some, List.countP_append, List.countP_append]
        simp only [List.countP_singleton, Entry.isCall, Entry.isOutput]
        simp only [Bool.false_eq_true, if_false, if_true]
        omega

theorem answeredInPlace_nil : AnsweredInPlace [] := by
  intro before entry after heq
  cases before <;> cases heq

theorem answeredInPlace_snoc (entry : Entry) :
    AnsweredInPlace (entries ++ [entry]) ↔ AnsweredInPlace entries ∧ (HasOpenCall entries → MayFollow entries entry) := by
  constructor
  · intro h
    refine ⟨fun before other after heq => ?_, h entries entry [] rfl⟩
    exact h before other (after ++ [entry]) (by rw [heq, List.append_assoc, List.cons_append])
  · rintro ⟨hbefore, hlast⟩ before other after heq
    rcases List.eq_nil_or_concat' after with rfl | ⟨after, last, rfl⟩
    · obtain ⟨rfl, hentry⟩ := List.append_inj' heq rfl
      obtain rfl := List.head_eq_of_cons_eq hentry
      exact hlast
    · rw [← List.cons_append, ← List.append_assoc] at heq
      obtain ⟨rfl, -⟩ := List.append_inj' heq rfl
      exact hbefore before other after rfl

/-- The messages are open while the calls are answered in place, and broken from then on. -/
theorem Run.shape (hinstructions : AreTexts instructions) (h : Run instructions entries history) :
    (AnsweredInPlace entries ∧ Open history.messages history.pendingCalls) ∨
      (¬ AnsweredInPlace entries ∧ Broken history.messages) := by
  induction h with
  | start =>
    refine .inl ⟨answeredInPlace_nil, .settled ?_⟩
    have hlegal : ∀ messages : List ChatMessage, AreTexts messages → Legal messages := by
      intro messages hmessages
      induction messages with
      | nil => exact .nil
      | cons message messages ih =>
        obtain ⟨⟨role, content, rfl⟩, hmore⟩ := List.forall_mem_cons.mp hmessages
        exact (ih hmore).content role content
    exact hlegal _ hinstructions
  | @step entries before after entry hrun happlied ih =>
    have hwaits := hrun.waits hinstructions
    cases happlied with
    | skip =>
      rw [Option.toList_none, List.append_nil]
      exact ih
    | message role content =>
      rw [Option.toList_some, answeredInPlace_snoc, hwaits.hasOpenCall_iff]
      rcases ih with ⟨hplace, hopen⟩ | ⟨hplace, hbroken⟩
      · by_cases hpending : before.pendingCalls = []
        · refine .inl ⟨⟨hplace, fun hne => absurd hpending hne⟩, ?_⟩
          rw [hpending] at hopen ⊢
          exact .settled (hopen.legal.append (.content role content .nil))
        · exact .inr ⟨fun h => h.2 hpending, hopen.broken hpending rfl⟩
      · exact .inr ⟨fun h => hplace h.1, hbroken.append _⟩
    | call call _ hfresh =>
      rw [Option.toList_some, answeredInPlace_snoc, hwaits.hasOpenCall_iff]
      rcases ih with ⟨hplace, hopen⟩ | ⟨hplace, hbroken⟩
      · by_cases hnext : before.pendingCalls ≠ [] → MayFollow entries (.call call)
        · exact .inl ⟨⟨hplace, hnext⟩, hopen.call hfresh fun hpending => hwaits.last.mpr (hnext hpending)⟩
        · obtain ⟨hpending, hother⟩ := Classical.not_imp.mp hnext
          refine .inr ⟨fun h => hnext h.2, ?_⟩
          have hlast := mt hwaits.last.mp hother
          rcases addCall_cases before.messages call with ⟨front, toolCalls, hfront, -⟩ | ⟨-, hadd⟩
          · exact absurd ⟨toolCalls, by rw [hfront]; simp⟩ hlast
          · rw [hadd]
            exact hopen.broken hpending rfl
      · exact .inr ⟨fun h => hplace h.1, hbroken.addCall call⟩
    | output callId name text _ hpending =>
      rw [Option.toList_some, answeredInPlace_snoc]
      rcases ih with ⟨hplace, hopen⟩ | ⟨hplace, hbroken⟩
      · exact .inl ⟨⟨hplace, fun _ => trivial⟩, hopen.output hwaits.distinct hpending _⟩
      · exact .inr ⟨fun h => hplace h.1, hbroken.append _⟩

/-! ## Accepted inputs -/

theorem instructionMessages_areTexts (body : PyJson) : AreTexts (instructionMessages body) := by
  unfold instructionMessages
  split
  · split
    · exact fun _ hmem => absurd hmem List.not_mem_nil
    · intro message hmem
      exact ⟨_, _, List.mem_singleton.mp hmem⟩
  · exact fun _ hmem => absurd hmem List.not_mem_nil

/-- What was accepted, as a run over its entries that leaves no call open. -/
theorem responsesInputToMessages_run {body : PyJson} {rawInput : List PyJson} {allowedToolNames : Option (List PyStr)}
    {messages : List ChatMessage} (hinput : body.get (lit "input") = .list rawInput)
    (h : responsesInputToMessages reprOf body allowedToolNames = .ok messages) :
    Run (instructionMessages body) (rawInput.filterMap entryOf) ⟨messages, []⟩ := by
  unfold responsesInputToMessages at h
  rw [hinput] at h
  dsimp only at h
  cases hcheck : validateToolTranscript (allowedToolNames.map (· ++ kernelToolTranscriptNames)) none rawInput with
  | error error =>
    rw [hcheck] at h
    cases h
  | ok checked =>
    cases hrun : translateItems reprOf (instructionMessages body) rawInput with
    | error error =>
      rw [hcheck, hrun] at h
      cases h
    | ok history =>
      rw [hcheck, hrun] at h
      have hresult := translateItems_run (validateToolTranscript_checked hcheck) hrun
      simp only [bind, Except.bind] at h
      split at h
      · cases h
      · case isFalse hempty =>
        split at h
        · cases h
        · obtain rfl := Except.ok.inj h
          have hnone : history.pendingCalls = [] := by simpa using hempty
          rw [← hnone]
          exact hresult

/-- What the messages owe to the input: a legal history in which every call and every output
stands once, as it was given, and the texts follow one another as they did. -/
structure Faithful (body : PyJson) (rawInput : List PyJson) (messages : List ChatMessage) : Prop where
  legal : Legal messages
  complete : ∀ item ∈ rawInput, (item.get (lit "type")).isStr (lit "function_call") = true ∨
    (item.get (lit "type")).isStr (lit "function_call_output") = true → (entryOf item).isSome
  calls : messages.flatMap ChatMessage.toolCalls = (rawInput.filterMap entryOf).filterMap Entry.toolCall
  outputs : messages.filterMap ChatMessage.output = (rawInput.filterMap entryOf).filterMap Entry.outputText
  texts : messages.filterMap ChatMessage.text =
    (instructionMessages body).filterMap ChatMessage.text ++ (rawInput.filterMap entryOf).filterMap Entry.text

theorem entryOf_isSome {item : PyJson} (hchecked : Checked item)
    (h : (item.get (lit "type")).isStr (lit "function_call") = true ∨
      (item.get (lit "type")).isStr (lit "function_call_output") = true) : (entryOf item).isSome := by
  have hmessage : isMessage item = false := by
    unfold isMessage
    rcases h with h | h
    all_goals
      rw [PyJson.isStr_iff.mp h]
      rfl
  unfold entryOf
  dsimp only
  rw [hmessage, if_neg Bool.false_ne_true]
  split
  · case isTrue hcall => exact hchecked.1 hcall
  · case isFalse hcall =>
    have houtput := h.resolve_left hcall
    rw [if_pos houtput]
    exact hchecked.2 houtput

theorem responsesInputToMessages_checked {body : PyJson} {rawInput : List PyJson}
    {allowedToolNames : Option (List PyStr)} {messages : List ChatMessage}
    (hinput : body.get (lit "input") = .list rawInput)
    (h : responsesInputToMessages reprOf body allowedToolNames = .ok messages) : ∀ item ∈ rawInput, Checked item := by
  unfold responsesInputToMessages at h
  rw [hinput] at h
  dsimp only at h
  cases hcheck : validateToolTranscript (allowedToolNames.map (· ++ kernelToolTranscriptNames)) none rawInput with
  | error error =>
    rw [hcheck] at h
    cases h
  | ok checked => exact validateToolTranscript_checked hcheck

/-- A message between a call and its output. -/
def interruptedInput : List PyJson := [
  .dict [(lit "type", .str (lit "function_call")), (lit "call_id", .str (lit "call-1")), (lit "name", .str (lit "read")),
    (lit "arguments", .str (lit "x"))],
  .dict [(lit "type", .str (lit "message")), (lit "role", .str (lit "user")), (lit "content", .str (lit "go on"))],
  .dict [(lit "type", .str (lit "function_call_output")), (lit "call_id", .str (lit "call-1")),
    (lit "output", .str (lit "result"))]]

/-- A call, then its output. -/
def answeredInput : List PyJson := [
  .dict [(lit "type", .str (lit "function_call")), (lit "call_id", .str (lit "call-1")), (lit "name", .str (lit "read")),
    (lit "arguments", .str (lit "x"))],
  .dict [(lit "type", .str (lit "function_call_output")), (lit "call_id", .str (lit "call-1")),
    (lit "output", .str (lit "result"))]]

def bodyOf (input : List PyJson) : PyJson := .dict [(lit "input", .list input)]

def readCall : ToolCall := ⟨lit "call-1", lit "read", lit "x"⟩

/-- The message that came in between parts the call from its answer. -/
theorem interrupted_call_unanswered :
    ¬ ∀ (reprOf : PyJson → PyStr) (body : PyJson) (rawInput : List PyJson) (messages : List ChatMessage),
      body.get (lit "input") = .list rawInput → responsesInputToMessages reprOf body none = .ok messages →
        Faithful body rawInput messages := by
  intro h
  have haccepted : responsesInputToMessages (fun _ => []) (bodyOf interruptedInput) none = .ok
      [.calls [readCall], .content (lit "user") (.text (lit "go on")),
        .tool (lit "call-1") (lit "read") (some (lit "result"))] := by
    rfl
  have hlegal := (h _ _ _ _ rfl haccepted).legal
  have hbroken : Broken ([] ++ .calls [readCall] :: [] ++ .content (lit "user") (.text (lit "go on")) ::
      [.tool (lit "call-1") (lit "read") (some (lit "result"))]) :=
    .intro .nil (by simp) rfl (by decide)
  exact hbroken.not_legal hlegal

/-- An accepted input becomes a legal history that holds what the input holds if and only if its
calls are answered in place. -/
theorem responsesInputToMessages_faithful_iff (reprOf : PyJson → PyStr) (body : PyJson) (rawInput : List PyJson)
    (allowedToolNames : Option (List PyStr)) (messages : List ChatMessage)
    (hinput : body.get (lit "input") = .list rawInput)
    (h : responsesInputToMessages reprOf body allowedToolNames = .ok messages) :
    Faithful body rawInput messages ↔ AnsweredInPlace (rawInput.filterMap entryOf) := by
  have hrun := responsesInputToMessages_run hinput h
  have hinstructions := instructionMessages_areTexts body
  have hholds := hrun.holds hinstructions
  constructor
  · intro hfaithful
    rcases hrun.shape hinstructions with ⟨hplace, -⟩ | ⟨-, hbroken⟩
    · exact hplace
    · exact absurd hfaithful.legal hbroken.not_legal
  · intro hplace
    rcases hrun.shape hinstructions with ⟨-, hopen⟩ | ⟨hnot, -⟩
    · exact {
        legal := hopen.legal
        complete := fun item hmem => entryOf_isSome (responsesInputToMessages_checked hinput h item hmem)
        calls := hholds.calls
        outputs := hholds.outputs
        texts := hholds.texts }
    · exact absurd hplace hnot

theorem responsesInputToMessages_faithful_iff_answered :
    Faithful (bodyOf answeredInput) answeredInput
      [.calls [readCall], .tool (lit "call-1") (lit "read") (some (lit "result"))] ↔
        AnsweredInPlace (answeredInput.filterMap entryOf) :=
  responsesInputToMessages_faithful_iff (fun _ => []) (bodyOf answeredInput) answeredInput none _ rfl rfl

end ChatMessages
