import ToranaEdge.Format.Shared

/-! # Marshalling for Anthropic Messages

A message's ordered body becomes the wire content array.  A cache breakpoint
has no element of its own there: it is a member of the element it closes. -/

namespace ToranaEdge.Format.Anthropic

open Engine

/-! ## Content blocks -/

/-- `contentBlock`.  `raw` is an unmodelled arm, emitted as it is. -/
structure ContentBlock where
  type : String
  text : String := ""
  id : String := ""
  name : String := ""
  input : Option Json := none
  toolUseID : String := ""
  isError : Option Bool := none
  content : Option Json := none
  thinking : String := ""
  signature : String := ""
  data : String := ""
  cacheControl : Option Json := none
  raw : Option Members := none

def contentBlockFields (cb : ContentBlock) : List (String × Option Json) :=
  [("type", some (.str cb.type)), ("text", nonEmptyString cb.text), ("id", nonEmptyString cb.id),
   ("name", nonEmptyString cb.name),
   -- every tool_use carries its input, an empty one when the block has none
   ("input", if cb.type = "tool_use" then some (cb.input.getD (structJson [])) else cb.input),
   ("tool_use_id", nonEmptyString cb.toolUseID), ("is_error", cb.isError.map Json.bool),
   ("content", cb.content), ("thinking", nonEmptyString cb.thinking),
   ("signature", nonEmptyString cb.signature), ("data", nonEmptyString cb.data),
   ("cache_control", cb.cacheControl)]

def ContentBlock.marshalJSON (cb : ContentBlock) : Json :=
  match cb.raw with
  | none => structJson (contentBlockFields cb)
  | some members =>
    match cb.cacheControl with
    | none => members.json
    | some marker => Members.json (members.insert "cache_control" marker)

/-- `markerBytes` of an optional marker. -/
def markerBytes (marker : OptionalJSONObject) : Option Json := marker.map Members.json

/-- The breakpoint closes the prefix at the last block; the first marker stays. -/
def closeLast (marker : RequiredJSONObject) (last : ContentBlock) : ContentBlock :=
  { last with cacheControl := last.cacheControl.or (some marker.members.json) }

def closePrefix (marker : RequiredJSONObject) (out : List ContentBlock) : List ContentBlock :=
  match out.getLast? with
  | none => out
  | some last => out.dropLast ++ [closeLast marker last]

/-- The first of the named members that the payload duplicates. -/
def duplicated (names : List String) (payload : Members) : Option String :=
  names.find? fun name => (payload.lookup name).isSome

def unknownNames : List String := ["type", "cache_control"]

/-- The block kinds the adapter models. -/
def modeledArms : List String := ["text", "thinking", "redacted_thinking", "tool_use", "tool_result"]

variable (codec : Codec)

/-- `marshalUnknownBlock`: the kind goes back as the wire type. -/
def marshalUnknownBlock (u : UnknownBlock) : Except String ContentBlock :=
  match duplicated unknownNames u.payload.members with
  | some name =>
    .error (s!"anthropic: unknown payload duplicates canonical member {codec.quote name} " ++
      "(projection invariant)")
  | none =>
    if u.kind ∈ modeledArms then
      .error (s!"anthropic: unknown block kind {codec.quote u.kind} names a modeled arm " ++
        "(projection invariant)")
    else
      .ok { type := u.kind, raw := some (u.payload.members.insert "type" (.str u.kind)) }

/-! ## Nested tool-result content -/

/-- A nested element that is neither unknown nor a breakpoint is text. -/
def nestedIsText (c : ToolResultContentBlock) : Bool :=
  c.text != "" || (c.unknown.isNone && c.cacheBreakpoint.isNone)

def textMembers (text : String) : Members :=
  structMembers [("type", some (.str "text")), ("text", some (.str text))]

def nestedUnknown (u : UnknownBlock) : Except String Members :=
  match duplicated unknownNames u.payload.members with
  | some name =>
    .error (s!"anthropic: nested unknown payload duplicates canonical member {codec.quote name} " ++
      "(projection invariant)")
  | none =>
    if u.kind = "text" ∨ u.kind = "tool_result" then
      .error (s!"anthropic: nested unknown block kind {codec.quote u.kind} names a modeled arm " ++
        "(projection invariant)")
    else .ok (u.payload.members.insert "type" (.str u.kind))

def closeNested (marker : RequiredJSONObject) (out : List Members) : List Members :=
  match out.getLast? with
  | none => out
  | some last =>
    if (last.lookup "cache_control").isSome then out
    else out.dropLast ++ [last.insert "cache_control" marker.members.json]

def nestedLoop :
    Nat → List Members → List ToolResultContentBlock → Except String (List Members)
  | _, out, [] => .ok out
  | i, out, c :: rest =>
    if nestedIsText c then nestedLoop (i + 1) (out ++ [textMembers c.text]) rest
    else
      match c.unknown, c.cacheBreakpoint with
      | some u, _ => do nestedLoop (i + 1) (out ++ [← nestedUnknown codec u]) rest
      | none, some cache =>
        if i = 0 ∨ out.isEmpty then
          .error (s!"anthropic: nested cache breakpoint at position {i} " ++
            "has no preceding element to attach to")
        else nestedLoop (i + 1) (closeNested cache.marker out) rest
      | none, none => nestedLoop (i + 1) out rest

/-- `marshalNestedContent`: no element at all is the empty string. -/
def marshalNestedContent (content : List ToolResultContentBlock) :
    Except String Json := do
  let out ← nestedLoop codec 0 [] content
  if out.isEmpty then return .str "" else return .arr (out.map Members.json)

/-! ## Messages -/

def blockKind (b : Block) : String := firstArm "empty" b

def systemLoop : Nat → List ContentBlock → List Block → Except String (List ContentBlock)
  | _, out, [] => .ok out
  | i, out, b :: rest =>
    match b.text, b.cacheBreakpoint with
    | some t, _ => systemLoop (i + 1) (out ++ [{ type := "text", text := t.text }]) rest
    | none, some cache =>
      if i = 0 ∨ out.isEmpty then
        .error (s!"anthropic: system cache breakpoint at position {i} " ++
          "has no preceding text block to attach to")
      else systemLoop (i + 1) (closePrefix cache.marker out) rest
    | none, none =>
      .error (s!"anthropic: system block {i} ({blockKind b}) is not representable " ++
        "on the Anthropic system array")

def marshalSystemBlocks (m : Message) : Except String (List ContentBlock) :=
  systemLoop 0 [] m.blocks

/-- One block of a message body.  `none` is a breakpoint, which closes the block
before it; the arms are tried in the source's order. -/
def marshalBlock (role : Role) (i : Nat) (b : Block) :
    Except String (Option ContentBlock) :=
  match b.text, b.thinking, b.redactedThinking, b.toolUse, b.toolResult, b.cacheBreakpoint,
    b.unknown, b.trailingSignature with
  | some t, _, _, _, _, _, _, _ => .ok (some { type := "text", text := t.text })
  | none, some t, _, _, _, _, _, _ =>
    .ok (some { type := "thinking", thinking := t.text, signature := t.signature })
  | none, none, some t, _, _, _, _, _ => .ok (some { type := "redacted_thinking", data := t.data })
  | none, none, none, some t, _, _, _, _ =>
    if role ≠ roleAssistant then
      .error (s!"anthropic: tool_use block {i} on a {codec.quote role} message is unrepresentable")
    else
      .ok (some { type := "tool_use", id := t.id, name := t.name
                  input := some t.arguments.members.json })
  | none, none, none, none, some r, _, _, _ =>
    if role ≠ roleUser then
      .error (s!"anthropic: tool_result block {i} on a {codec.quote role} message " ++
        "is unrepresentable")
    else do
      let content ← marshalNestedContent codec r.content
      return some { type := "tool_result", toolUseID := r.toolCallID, isError := r.isError
                    name := r.toolName, content := some content }
  | none, none, none, none, none, some _, _, _ => .ok none
  | none, none, none, none, none, none, some u, _ =>
    match marshalUnknownBlock codec u with
    | .error err => .error s!"anthropic: {err}"
    | .ok cb => .ok (some cb)
  | none, none, none, none, none, none, none, some _ =>
    .error (s!"anthropic: trailing signature block {i} is not representable " ++
      "(Code Assist only)")
  | none, none, none, none, none, none, none, none => .error s!"anthropic: block {i} has no arm"

def contentLoop (role : Role) :
    Nat → List ContentBlock → List Block → Except String (List ContentBlock)
  | _, out, [] => .ok out
  | i, out, b :: rest => do
    match ← marshalBlock codec role i b, b.cacheBreakpoint with
    | some cb, _ => contentLoop role (i + 1) (out ++ [cb]) rest
    | none, some cache =>
      if i = 0 ∨ out.isEmpty then
        .error (s!"anthropic: cache breakpoint at position {i} " ++
          "has no preceding content block to attach to")
      else contentLoop role (i + 1) (closePrefix cache.marker out) rest
    | none, none => contentLoop role (i + 1) out rest

def marshalContentBlocks (m : Message) : Except String (List ContentBlock) :=
  contentLoop codec m.role 0 [] m.blocks

def unmapRole (r : Role) : String := if r = roleTool then "user" else r

/-- One message of the wire array; a system message has none. -/
def marshalMessage (m : Message) : Except String (Option Json) :=
  if m.role = roleSystem then .ok none
  else if m.role = roleTool then
    .error ("anthropic: tool-role messages are not representable; " ++
      "tool results must ride their user message as ToolResult blocks")
  else do
    let blocks ← marshalContentBlocks codec m
    return some (structJson [("role", some (.str (unmapRole m.role))),
      ("content", some (sliceJson (blocks.map ContentBlock.marshalJSON)))])

/-- The system array: the first system message alone. -/
def marshalSystem (messages : List Message) : Except String (List ContentBlock) :=
  match messages.find? fun m => m.role = roleSystem with
  | none => .ok []
  | some m => marshalSystemBlocks m

def marshalTool (t : ToolDef) : Json :=
  structJson [("name", some (.str t.name)), ("description", nonEmptyString t.description),
    ("input_schema", some t.parameters.members.json), ("cache_control", markerBytes t.cacheControl)]

/-! ## The request -/

variable (chat : ChatRequest)

/-- The `anthropicRequest` a canonical request projects to. -/
def anthropicRequest :
    Except String (List (String × Option Json)) := do
  let system ← marshalSystem chat.messages
  let messages ← chat.messages.mapM (marshalMessage codec)
  let temperature ← encodeOptFloat codec chat.temperature
  let topP ← encodeOptFloat codec chat.topP
  return [("model", nonEmptyString chat.model), ("max_tokens", chat.maxTokens.map encodeInt),
    ("temperature", temperature), ("top_p", topP),
    ("stop_sequences", nonEmptySlice (stringsJson chat.stopSequences)),
    ("system", nonEmptySlice (system.map ContentBlock.marshalJSON)),
    ("messages", some (sliceJson (messages.filterMap id))),
    ("tools", nonEmptySlice (chat.tools.map marshalTool)), ("stream", trueOnly chat.stream)]

def marshalBody : Except String Members := do
  match validateFullRequest codec chat with
  | .error err => .error s!"anthropic: {err}"
  | .ok () =>
    rejectFreeformTools codec "anthropic" chat
    let fields ← anthropicRequest codec chat
    spliceExtensions "provider extensions" (structMembers fields) chat.providerExtensions

def marshal : Except String Members := do
  validateOutputFormatExtras .anthropic chat
  applyOutputFormat codec .anthropic chat (← marshalBody codec chat)

end ToranaEdge.Format.Anthropic
