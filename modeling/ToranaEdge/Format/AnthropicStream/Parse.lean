import ToranaEdge.Engine.StreamEvents
import ToranaEdge.Format.AnthropicStream.Frames
import Mathlib.Logic.Function.Basic

/-! # Reading an Anthropic stream

`ParseStream` decodes each `data:` line into an `sseEvent`, whose members are
zero where the line has none, and makes events of it.  By default it emits no
event for the start of the message or for the start and stop of a text or
thinking block.

A line is its decoded payload, or the error `encoding/json` reports for it.
Lines without `data:`, empty payloads and `[DONE]` are skipped by the code and
have no counterpart here. -/

namespace ToranaEdge.Format.Anthropic

/-! ## Decoded payloads -/

structure UsageEv where
  inputTokens : Int := 0
  outputTokens : Int := 0
  cacheReadInputTokens : Int := 0
  cacheCreationInputTokens : Int := 0
  deriving DecidableEq, Repr

structure ContentBlockEv where
  type : String
  id : String := ""
  name : String := ""
  text : String := ""
  thinking : String := ""
  deriving DecidableEq, Repr

structure DeltaEv where
  type : String := ""
  text : String := ""
  partialJSON : String := ""
  stopReason : String := ""
  thinking : String := ""
  signature : String := ""
  deriving DecidableEq, Repr

structure MessageEv where
  id : String := ""
  role : String := ""
  model : String := ""
  usage : Option UsageEv := none
  deriving DecidableEq, Repr

structure ErrorEv where
  message : String := ""
  deriving DecidableEq, Repr

structure SSEEvent where
  type : String
  index : Int := 0
  contentBlock : Option ContentBlockEv := none
  delta : Option DeltaEv := none
  message : Option MessageEv := none
  usage : Option UsageEv := none
  error : Option ErrorEv := none
  deriving DecidableEq, Repr

/-! ## The parser -/

/-- `StreamAdapter`: the native adapter sets neither option. -/
structure StreamAdapter where
  emitMessageStart : Bool := false
  explicitBlocks : Bool := false
  deriving DecidableEq, Repr

/-- The variables of `ParseStream`. -/
structure Parser where
  blockTypes : Int → Option String := fun _ => none
  inputTokens : Int := 0
  cacheRead : Int := 0
  cacheWrite : Int := 0

namespace Parser

variable (a : StreamAdapter)

/-- The event of a block that starts. -/
def startEvents (index : Int) (block : ContentBlockEv) : List Engine.StreamEvent :=
  if block.type = "tool_use" then
    [.toolCallStart { index, id := block.id, name := block.name }]
  else if a.explicitBlocks then
    if block.type = "thinking" then [.blockStart index .thinking ""]
    else if block.type = "text" then [.blockStart index .text ""]
    else [.blockStart index .provider block.type]
  else []

/-- The event of a delta. -/
def deltaEvents (index : Int) (delta : DeltaEv) : List Engine.StreamEvent :=
  if delta.type = "text_delta" then [.textDelta delta.text]
  else if delta.type = "input_json_delta" then
    [.toolCallDelta { index, argumentsDelta := delta.partialJSON }]
  else if delta.type = "thinking_delta" then [.thinkingDelta delta.thinking]
  else if delta.type = "signature_delta" then [.signatureDelta delta.signature]
  else []

/-- The event of a block that stops. -/
def stopEvents (p : Parser) (index : Int) : List Engine.StreamEvent :=
  if p.blockTypes index = some "tool_use" then [.toolCallEnd index]
  else if (p.blockTypes index).isSome && a.explicitBlocks then [.blockStop index]
  else []

/-- The finish reason for a stop reason. -/
def finishReasonOf (reason : String) : String :=
  if reason = "end_turn" then "stop"
  else if reason = "tool_use" then "tool_calls"
  else if reason = "max_tokens" then "length"
  else reason

/-- The events of a `message_delta`: usage comes before the finish reason, and a
count that is not zero there is preferred over the one of `message_start`. -/
def messageDeltaEvents (p : Parser) (ev : SSEEvent) : List Engine.StreamEvent × Parser :=
  match ev.usage with
  | none => (ev.delta.toList.map fun d => .finishReason (finishReasonOf d.stopReason), p)
  | some u =>
    let p := if u.inputTokens ≠ 0 then { p with inputTokens := u.inputTokens } else p
    let cr := if u.cacheReadInputTokens = 0 then p.cacheRead else u.cacheReadInputTokens
    let cw := if u.cacheCreationInputTokens = 0 then p.cacheWrite else u.cacheCreationInputTokens
    (.usage { inputTokens := p.inputTokens, outputTokens := u.outputTokens
              cacheReadTokens := cr, cacheWriteTokens := cw } ::
        ev.delta.toList.map fun d => .finishReason (finishReasonOf d.stopReason), p)

/-- One decoded payload: its events, and the state after it, unless it ends the
stream. -/
def parseEvent (p : Parser) (ev : SSEEvent) : List Engine.StreamEvent × Option Parser :=
  if ev.type = "message_start" then
    match ev.message with
    | none => ([], some p)
    | some m =>
      (if a.emitMessageStart then [.messageStart { role := m.role, id := m.id, model := m.model }]
        else [], some (m.usage.elim p fun u =>
          { p with inputTokens := u.inputTokens, cacheRead := u.cacheReadInputTokens
                   cacheWrite := u.cacheCreationInputTokens }))
  else if ev.type = "content_block_start" then
    match ev.contentBlock with
    | none => ([], some p)
    | some block =>
      (startEvents a ev.index block,
        some { p with blockTypes := Function.update p.blockTypes ev.index (some block.type) })
  else if ev.type = "content_block_delta" then
    (ev.delta.elim [] (deltaEvents ev.index), some p)
  else if ev.type = "content_block_stop" then
    (p.stopEvents a ev.index,
      some { p with blockTypes := Function.update p.blockTypes ev.index none })
  else if ev.type = "message_delta" then
    ((p.messageDeltaEvents ev).1, some (p.messageDeltaEvents ev).2)
  else if ev.type = "error" then
    match ev.error with
    | none => ([.error 500 "anthropic stream error event missing error detail"], none)
    | some e => ([.error 500 e.message], none)
  else ([], some p)

/-- The events of the remaining payloads; `readError` is the scanner's error, which
comes last. -/
def parseFrom (readError : Option String) :
    Parser → List (Except String SSEEvent) → List Engine.StreamEvent
  | _, [] => readError.toList.map fun err => .error 500 s!"anthropic stream read: {err}"
  | p, .error err :: rest =>
    .error 500 s!"anthropic stream parse: {err}" :: p.parseFrom readError rest
  | p, .ok ev :: rest =>
    match p.parseEvent a ev with
    | (events, some p') => events ++ p'.parseFrom readError rest
    | (events, none) => events

end Parser

def parseStream (a : StreamAdapter) (payloads : List (Except String SSEEvent))
    (readError : Option String) : List Engine.StreamEvent :=
  Parser.parseFrom a readError {} payloads

/-! ## What a frame decodes to -/

def UsageCounts.usageEv (u : UsageCounts) : UsageEv where
  inputTokens := u.inputTokens.getD 0
  outputTokens := u.outputTokens.getD 0
  cacheReadInputTokens := u.cacheReadInputTokens.getD 0
  cacheCreationInputTokens := u.cacheCreationInputTokens.getD 0

def BlockOpening.contentBlockEv : BlockOpening → ContentBlockEv
  | .text initial => { type := "text", text := initial }
  | .thinking initial _ => { type := "thinking", thinking := initial }
  | .toolUse id name => { type := "tool_use", id, name }

def BlockDelta.deltaEv : BlockDelta → DeltaEv
  | .text more => { type := "text_delta", text := more }
  | .thinking more => { type := "thinking_delta", thinking := more }
  | .signature token => { type := "signature_delta", signature := token }
  | .inputJson more => { type := "input_json_delta", partialJSON := more }

/-- The payload of a frame, decoded. -/
def Frame.sseEvent : Frame → SSEEvent
  | .messageStart id role model usage =>
    { type := "message_start", message := some { id, role, model, usage := some usage.usageEv } }
  | .ping => { type := "ping" }
  | .contentBlockStart index opening =>
    { type := "content_block_start", index, contentBlock := some opening.contentBlockEv }
  | .contentBlockDelta index delta =>
    { type := "content_block_delta", index, delta := some delta.deltaEv }
  | .contentBlockStop index => { type := "content_block_stop", index }
  | .messageDelta stopReason usage =>
    { type := "message_delta", delta := some { stopReason := stopReason.getD "" }
      usage := usage.map UsageCounts.usageEv }
  | .messageStop => { type := "message_stop" }
  | .error message => { type := "error", error := some { message } }

/-- What the native adapter makes of a stream of frames. -/
def parseFrames (frames : List Frame) : List Engine.StreamEvent :=
  parseStream {} (frames.map fun frame => .ok frame.sseEvent) none

end ToranaEdge.Format.Anthropic
