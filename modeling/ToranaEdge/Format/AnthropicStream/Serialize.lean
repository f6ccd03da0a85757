import ToranaEdge.Engine.StreamEvents
import ToranaEdge.Format.AnthropicStream.Frames
import Mathlib.Logic.Function.Basic

/-! # Writing an Anthropic stream

`SerializeStream` keeps one running block index, a flag for each kind of
non-tool block, and a map from the index of a tool call to the block that was
started for it.  Text and thinking blocks open by an explicit start or by the
first delta, and close when something of another kind arrives.

Cancellation and a failing writer are left out: both end the stream where they
happen. -/

namespace ToranaEdge.Format

def rejectFreeformStreamEvent (event : Engine.StreamEvent) (provider : String) : Except String Unit :=
  match event with
  | .toolCallStart start =>
    if start.invocationKind = .freeform then
      .error s!"{provider}: streamed free-form tool calls are unsupported"
    else .ok ()
  | .toolCallDelta delta =>
    if delta.inputTextDelta.isSome then
      .error s!"{provider}: streamed free-form tool input is unsupported"
    else .ok ()
  | _ => .ok ()

namespace Anthropic

/-- The variables of `SerializeStream`. -/
structure Serializer where
  started : Bool := false
  inThinking : Bool := false
  inText : Bool := false
  blockIndex : Nat := 0
  pendingUsage : Option Engine.StreamUsage := none
  finishWritten : Bool := false
  /-- The block started for the tool call of an index. -/
  toolBlock : Int → Option Nat := fun _ => none
  messageID : String := "msg_torana_stream"
  messageRole : String := "assistant"
  messageModel : String := ""

/-- The frames a piece of the serializer writes, and the state it leaves. -/
abbrev Wrote := List Frame × Serializer

def Wrote.andThen (wrote : Wrote) (next : Serializer → Wrote) : Wrote :=
  (wrote.1 ++ (next wrote.2).1, (next wrote.2).2)

@[simp] lemma Wrote.andThen_snd (wrote : Wrote) (next : Serializer → Wrote) :
    (wrote.andThen next).2 = (next wrote.2).2 := rfl

/-- `usageJSON`: cache counts only when positive. -/
def usageJSON (u : Engine.StreamUsage) : UsageCounts where
  inputTokens := some u.inputTokens
  outputTokens := some u.outputTokens
  cacheReadInputTokens := if u.cacheReadTokens > 0 then some u.cacheReadTokens else none
  cacheCreationInputTokens := if u.cacheWriteTokens > 0 then some u.cacheWriteTokens else none

/-- The stop reason written for a finish reason. -/
def stopReasonOf (reason : String) : String :=
  if reason = "stop" then "end_turn"
  else if reason = "tool_calls" then "tool_use"
  else if reason = "length" then "max_tokens"
  else reason

namespace Serializer

variable (s : Serializer)

def ensureStarted : Wrote :=
  if s.started then ([], s)
  else
    ([.messageStart s.messageID s.messageRole s.messageModel
        { inputTokens := some 0, outputTokens := some 0 }, .ping], { s with started := true })

def closeThinking : Wrote :=
  if s.inThinking then
    ([.contentBlockStop s.blockIndex], { s with inThinking := false, blockIndex := s.blockIndex + 1 })
  else ([], s)

def closeText : Wrote :=
  if s.inText then
    ([.contentBlockStop s.blockIndex], { s with inText := false, blockIndex := s.blockIndex + 1 })
  else ([], s)

def openThinking : Wrote :=
  if s.inThinking then ([], s)
  else ([.contentBlockStart s.blockIndex (.thinking "" "")], { s with inThinking := true })

def openText : Wrote :=
  if s.inText then ([], s)
  else ([.contentBlockStart s.blockIndex (.text "")], { s with inText := true })

/-! Opening and closing a text or thinking block leaves the other variables alone. -/

@[simp] lemma sameRest_closeThinking :
    s.closeThinking.2.toolBlock = s.toolBlock ∧ s.closeThinking.2.pendingUsage = s.pendingUsage := by
  unfold closeThinking
  split <;> exact ⟨rfl, rfl⟩

@[simp] lemma sameRest_closeText :
    s.closeText.2.toolBlock = s.toolBlock ∧ s.closeText.2.pendingUsage = s.pendingUsage := by
  unfold closeText
  split <;> exact ⟨rfl, rfl⟩

@[simp] lemma sameRest_openThinking :
    s.openThinking.2.toolBlock = s.toolBlock ∧ s.openThinking.2.pendingUsage = s.pendingUsage := by
  unfold openThinking
  split <;> exact ⟨rfl, rfl⟩

@[simp] lemma sameRest_openText :
    s.openText.2.toolBlock = s.toolBlock ∧ s.openText.2.pendingUsage = s.pendingUsage := by
  unfold openText
  split <;> exact ⟨rfl, rfl⟩

/-- A delta of the block at the running index. -/
def writeDelta (delta : BlockDelta) (s : Serializer) : Wrote :=
  ([.contentBlockDelta s.blockIndex delta], s)

def startTool (start : Engine.ToolCallStart) (s : Serializer) : Wrote :=
  ([.contentBlockStart s.blockIndex (.toolUse start.id start.name)],
    { s with toolBlock := Function.update s.toolBlock start.index (some s.blockIndex)
             blockIndex := s.blockIndex + 1 })

/-- The block of a tool call; an unknown index stands for itself. -/
def toolIndex (index : Int) : Int :=
  match s.toolBlock index with
  | some n => n
  | none => index

def finish (reason : String) (s : Serializer) : Wrote :=
  ([.messageDelta (some (stopReasonOf reason)) (s.pendingUsage.map usageJSON)],
    { s with pendingUsage := none, finishWritten := true })

/-- The switch over a started stream's event. -/
def render : Engine.StreamEvent → Except String Wrote
  | .blockStart _ .provider providerKind =>
    .error (s!"anthropic: provider block kind {providerKind.quote} is not supported " ++
      "by this serializer")
  | .blockStart _ .thinking _ => .ok (s.closeText.andThen openThinking)
  | .blockStart _ .text _ => .ok (s.closeThinking.andThen openText)
  | .blockStop _ => .ok (s.closeThinking.andThen closeText)
  | .thinkingDelta text => .ok (s.openThinking.andThen (writeDelta (.thinking text)))
  | .signatureDelta token =>
    if s.inThinking then .ok (s.writeDelta (.signature token))
    else .error "anthropic: signature delta with no open thinking block"
  | .textDelta text =>
    .ok ((s.closeThinking.andThen openText).andThen (writeDelta (.text text)))
  | .toolCallStart start => .ok ((s.closeThinking.andThen closeText).andThen (startTool start))
  | .toolCallDelta delta =>
    .ok ([.contentBlockDelta (s.toolIndex delta.index) (.inputJson delta.argumentsDelta)], s)
  | .toolCallEnd index =>
    .ok ([.contentBlockStop (s.toolIndex index)],
      { s with toolBlock := Function.update s.toolBlock index none })
  | .usage usage =>
    if s.finishWritten then .ok ([.messageDelta none (some (usageJSON usage))], s)
    else .ok ([], { s with pendingUsage := some usage })
  | .finishReason reason =>
    if reason = "" then .ok ([], s)
    else .ok ((s.closeThinking.andThen closeText).andThen (finish reason))
  | .empty | .messageStart _ | .error _ _ => .ok ([], s)

/-- One event: the frames written, and the state or the error it ends in. -/
def serializeEvent (event : Engine.StreamEvent) :
    List Frame × Except String Serializer :=
  match event with
  | .messageStart start =>
    if s.started then ([], .error "anthropic: message start arrived after stream content")
    else
      ([], .ok { s with messageID := if start.id ≠ "" then start.id else s.messageID
                        messageRole := if start.role ≠ "" then start.role else s.messageRole
                        messageModel := start.model })
  | .error _ message => ([.error message], .error s!"anthropic: stream error: {message}")
  | event =>
    match rejectFreeformStreamEvent event "anthropic" with
    | .error msg => ([], .error msg)
    | .ok () =>
      match s.ensureStarted.2.render event with
      | .error msg => (s.ensureStarted.1, .error msg)
      | .ok wrote => (s.ensureStarted.1 ++ wrote.1, .ok wrote.2)

/-- An event of the content: neither the envelope nor an error, and not free-form. -/
def IsPlain (event : Engine.StreamEvent) : Prop :=
  match event with
  | .messageStart _ | .error _ _ => False
  | _ => rejectFreeformStreamEvent event "anthropic" = .ok ()

variable {s : Serializer} {event : Engine.StreamEvent}

lemma serializeEvent_plain (h : IsPlain event) : s.serializeEvent event =
      match s.ensureStarted.2.render event with
      | .error msg => (s.ensureStarted.1, .error msg)
      | .ok wrote => (s.ensureStarted.1 ++ wrote.1, .ok wrote.2) := by
  cases event with
  | messageStart _ | error _ _ => exact h.elim
  | _ =>
    have hfreeform : rejectFreeformStreamEvent _ "anthropic" = .ok () := h
    simp [serializeEvent, hfreeform]

/-- An event that is no envelope and no error starts the message and is rendered. -/
lemma serializeEvent_eq {wrote : Wrote} (hrender : s.ensureStarted.2.render event = .ok wrote)
    (h : IsPlain event) :
    s.serializeEvent event = (s.ensureStarted.1 ++ wrote.1, .ok wrote.2) := by
  rw [serializeEvent_plain h, hrender]

/-- Usage seen with no finish frame after it. -/
def flushUsage (s : Serializer) : Wrote :=
  (s.pendingUsage.toList.map fun usage => .messageDelta none (some (usageJSON usage)), s)

/-- The frames after the last event. -/
def close (s : Serializer) : List Frame :=
  (((s.ensureStarted.andThen closeThinking).andThen closeText).andThen flushUsage).1 ++ [.messageStop]

lemma close_eq (s : Serializer) :
    s.close = s.ensureStarted.1 ++ ((s.ensureStarted.2.closeThinking.andThen closeText).1 ++
      ((s.ensureStarted.2.closeThinking.andThen closeText).2.flushUsage.1 ++ [.messageStop])) := by
  simp [close, Wrote.andThen]

lemma close_idle (hstarted : s.started = true) (htext : s.inText = false)
    (hthinking : s.inThinking = false) (hpending : s.pendingUsage = none) :
    s.close = [.messageStop] := by
  simp [close, ensureStarted, closeThinking, closeText, flushUsage, Wrote.andThen, hstarted, htext,
    hthinking, hpending]

/-- The frames of the remaining events, and the error they end in. -/
def serializeFrom : Serializer → List Engine.StreamEvent → List Frame × Option String
  | s, [] => (s.close, none)
  | s, event :: rest =>
    match s.serializeEvent event with
    | (frames, .error msg) => (frames, some msg)
    | (frames, .ok s') => (frames ++ (s'.serializeFrom rest).1, (s'.serializeFrom rest).2)

/-- The message may as well be started at once. -/
lemma serializeFrom_started (s : Serializer) {events : List Engine.StreamEvent}
    (h : ∀ event ∈ events, IsPlain event) :
    (s.serializeFrom events).1 = s.ensureStarted.1 ++ (s.ensureStarted.2.serializeFrom events).1 := by
  have hagain : s.ensureStarted.2.ensureStarted = ([], s.ensureStarted.2) := by
    unfold ensureStarted
    split
    · next hstarted => simp
    · simp
  cases events with
  | nil =>
    simp only [serializeFrom]
    rw [close_eq, close_eq, hagain]
    rfl
  | cons event events =>
  have hplain := h event List.mem_cons_self
  simp only [serializeFrom]
  rw [serializeEvent_plain hplain, serializeEvent_plain hplain, hagain]
  cases s.ensureStarted.2.render event with
  | error msg | ok wrote => simp

/-- The frames of an event come first. -/
lemma serializeFrom_cons (s : Serializer) (event : Engine.StreamEvent)
    (rest : List Engine.StreamEvent) :
    ∃ frames, (s.serializeFrom (event :: rest)).1 = (s.serializeEvent event).1 ++ frames := by
  unfold serializeFrom
  match s.serializeEvent event with
  | (frames, .error msg) => exact ⟨[], (List.append_nil _).symm⟩
  | (frames, .ok s') => exact ⟨_, rfl⟩

end Serializer

def serializeStream (events : List Engine.StreamEvent) : List Frame × Option String :=
  Serializer.serializeFrom {} events

end Anthropic

end ToranaEdge.Format
