import ToranaEdge.Format.Shared

/-! # Marshalling for OpenAI Chat Completions

The content of a message is one ordered projection of its text and unknown
parts; a single text part is written as a plain string. -/

namespace ToranaEdge.Format.OpenAI

open Engine

/-! ## Content parts -/

/-- `chatContentPart`: `text` is set only for a part built from a text block. -/
structure ChatContentPart where
  value : Json
  text : Option String := none

def textContentPart (s : String) : ChatContentPart where
  value := structJson [("type", some (.str "text")), ("text", some (.str s))]
  text := some s

/-- The part kinds the adapter models. -/
def modeledKinds : List String := ["text", "input_text", "output_text", "tool_calls", "tool_call"]

variable (codec : Codec)

def rejectOpenAIProjection (u : UnknownBlock) : Except String Unit :=
  if (u.payload.members.lookup "type").isSome then
    .error ("openai: unknown payload duplicates canonical member " ++ codec.quote "type" ++
      " (projection invariant)")
  else if u.kind ∈ modeledKinds then
    .error (s!"openai: unknown block kind {codec.quote u.kind} names a modeled arm " ++
      "(projection invariant)")
  else .ok ()

/-- An unknown part, with its kind back as the discriminant. -/
def unknownPart (u : UnknownBlock) : Except String ChatContentPart := do
  rejectOpenAIProjection codec u
  return { value := Members.json (u.payload.members.insert "type" (.str u.kind)) }

def resultPart (c : ToolResultContentBlock) : Except String ChatContentPart :=
  match c.unknown, c.cacheBreakpoint with
  | some u, _ => unknownPart codec u
  | none, some _ => .error "openai chat: nested cache breakpoints are not representable"
  | none, none => .ok (textContentPart c.text)

/-! ## Messages -/

/-- `marshalMsg` while its blocks are visited. -/
structure MarshalMsg where
  reasoningContent : Option String := none
  toolCalls : List Json := []
  toolCallID : String := ""
  name : String := ""
  parts : List ChatContentPart := []

def marshalTC (t : ToolUseBlock) : Json :=
  structJson [("id", some (.str t.id)), ("type", some (.str "function")),
    ("function", some (structJson [("name", some (.str t.name)),
      ("arguments", some (.str t.arguments.text))]))]

/-- One block; the arms are tried in the source's order. -/
def marshalBlock (role : Role) (i : Nat) (mm : MarshalMsg) (b : Block) :
    Except String MarshalMsg :=
  match b.text, b.thinking, b.toolUse, b.toolResult, b.cacheBreakpoint, b.unknown,
    b.redactedThinking, b.trailingSignature with
  | some t, _, _, _, _, _, _, _ => .ok { mm with parts := mm.parts ++ [textContentPart t.text] }
  | none, some t, _, _, _, _, _, _ => .ok { mm with reasoningContent := some t.text }
  | none, none, some t, _, _, _, _, _ =>
    if role ≠ roleAssistant then
      .error s!"openai chat: tool_use block {i} on a {codec.quote role} message is unrepresentable"
    else .ok { mm with toolCalls := mm.toolCalls ++ [marshalTC t] }
  | none, none, none, some r, _, _, _, _ =>
    if role ≠ roleTool then
      .error (s!"openai chat: tool_result block {i} on a {codec.quote role} message is " ++
        "unrepresentable (the native tool-role message is the only representable carrier)")
    else do
      let parts ← r.content.mapM (resultPart codec)
      return { mm with toolCallID := r.toolCallID, name := r.toolName, parts := mm.parts ++ parts }
  | none, none, none, none, some _, _, _, _ =>
    .error s!"openai chat: cache breakpoint block {i} is not representable"
  | none, none, none, none, none, some u, _, _ => do
    let part ← unknownPart codec u
    return { mm with parts := mm.parts ++ [part] }
  | none, none, none, none, none, none, some _, _ =>
    .error s!"openai chat: redacted_thinking block {i} is not representable"
  | none, none, none, none, none, none, none, some _ =>
    .error s!"openai chat: trailing signature block {i} is not representable (Code Assist only)"
  | none, none, none, none, none, none, none, none => .error s!"openai chat: block {i} has no arm"

def blockLoop (role : Role) :
    Nat → MarshalMsg → List Block → Except String MarshalMsg
  | _, mm, [] => .ok mm
  | i, mm, b :: rest => do blockLoop role (i + 1) (← marshalBlock codec role i mm b) rest

/-- The content member: the string form is for exactly one text part. -/
def messageContent (role : Role) (mm : MarshalMsg) : Option Json :=
  match mm.parts with
  | [] => if role = roleAssistant ∧ mm.toolCalls ≠ [] then some .null else none
  | [part] =>
    match part.text with
    | none => some (.arr [part.value])
    | some text =>
      if text ≠ "" then some (.str text)
      else if role = roleAssistant ∧ mm.toolCalls ≠ [] then some .null
      else some (.str "")
  | parts => some (.arr (parts.map ChatContentPart.value))

def marshalChatMessage (m : Message) : Except String Json := do
  let mm ← blockLoop codec m.role 0 {} m.blocks
  return structJson [("role", some (.str m.role)), ("content", messageContent m.role mm),
    ("reasoning_content", mm.reasoningContent.map Json.str),
    ("tool_calls", nonEmptySlice mm.toolCalls), ("tool_call_id", nonEmptyString mm.toolCallID),
    ("name", nonEmptyString mm.name)]

def marshalTool (t : ToolDef) : Json :=
  structJson [("type", some (.str "function")),
    ("function", some (structJson [("name", some (.str t.name)),
      ("description", nonEmptyString t.description), ("parameters", some t.parameters.members.json),
      ("strict", trueOnly t.strict)]))]

/-! ## The request -/

variable (chat : ChatRequest)

/-- The `marshalOutput` a canonical request projects to. -/
def marshalOutput :
    Except String (List (String × Option Json)) := do
  let messages ← chat.messages.mapM (marshalChatMessage codec)
  let temperature ← encodeOptFloat codec chat.temperature
  let topP ← encodeOptFloat codec chat.topP
  return [("model", nonEmptyString chat.model), ("messages", some (.arr messages)),
    ("tools", nonEmptySlice (chat.tools.map marshalTool)), ("stream", some (.bool chat.stream)),
    ("max_tokens", chat.maxTokens.map encodeInt), ("temperature", temperature), ("top_p", topP),
    ("stop", nonEmptySlice (stringsJson chat.stopSequences))]

def marshalChat : Except String Members := do
  let fields ← marshalOutput codec chat
  spliceExtensions "openai provider extensions" (structMembers fields) chat.providerExtensions

/-- `marshalBody`: the host-only variant decides the wire. -/
def marshalBody : Except String Members := do
  match validateFullRequest codec chat with
  | .error err => .error s!"openai: {err}"
  | .ok () =>
    if chat.openAIVariant = .responses then codec.marshalResponses chat
    else
      rejectFreeformTools codec "openai chat" chat
      marshalChat codec chat

def marshal : Except String Members := do
  validateOutputFormatExtras .openai chat
  applyOutputFormat codec .openai chat (← marshalBody codec chat)

end ToranaEdge.Format.OpenAI
