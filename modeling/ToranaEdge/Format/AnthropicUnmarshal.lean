import ToranaEdge.Format.Anthropic
import ToranaEdge.Format.Decode

/-! # Unmarshalling Anthropic Messages

The wire structs of the adapter read from a JSON body, and the canonical
request they project to.  Three rules meet here: a message and a tool
definition are closed structs, a block of a modelled arm may carry the members
of its arm only, and a block of any other arm keeps what it has. -/

namespace ToranaEdge.Format.Anthropic

open Engine

/-! ## Content blocks -/

def contentBlockNames : List String :=
  ["type", "text", "id", "name", "input", "tool_use_id", "is_error", "content", "thinking",
    "signature", "data", "cache_control"]

/-- `anthropicArmAllowedMembers`. -/
def armAllowedMembers : String → Option (List String)
  | "text" => some ["type", "text", "cache_control"]
  | "thinking" => some ["type", "thinking", "signature", "cache_control"]
  | "redacted_thinking" => some ["type", "data", "cache_control"]
  | "tool_use" => some ["type", "id", "name", "input", "cache_control"]
  | "tool_result" => some ["type", "tool_use_id", "content", "cache_control", "is_error"]
  | _ => none

section unmarshal

variable (codec : WireCodec)

/-- `validateContentBlockMembers`.  Of several foreign members the source names any. -/
def validateContentBlockMembers (members : Entries) (cb : ContentBlock) : Except String Unit :=
  match armAllowedMembers cb.type with
  | none => .ok ()
  | some allowed =>
    match members.find? fun m => !allowed.contains m.1 with
    | some m =>
      .error (s!"anthropic: {cb.type} block carries a member {codec.quote m.1} " ++
        "outside its arm table")
    | none =>
      match cb.type with
      | "text" =>
        if decodeStringPtr (bound codec ["text"] members "text") matches .ok none then
          .error "anthropic: text block without a text member"
        else .ok ()
      | "tool_use" =>
        if cb.id = "" ∨ cb.name = "" then .error "anthropic: tool_use block requires id and name"
        else .ok ()
      | "tool_result" =>
        if (members.map Sigma.fst).contains "is_error" ∧ cb.isError.isNone then
          .error "anthropic: tool_result is_error must be a boolean"
        else if cb.toolUseID = "" then
          .error "anthropic: tool_result block requires tool_use_id"
        else .ok ()
      | _ => .ok ()

/-- The content of a block: a string, or an array that decodes; null reads as the
empty string. -/
def decodeBlockContent : Option Json → Except String (Option Json)
  | none => .ok none
  | some .null => .ok (some (.str ""))
  | some (.str s) => .ok (some (.str s))
  | some (.arr elems) =>
    if codec.decodesAny (.arr elems) then .ok (some (.arr elems))
    else .error "content: expected string or array"
  | some _ => .error "content: expected string or array"

/-- The fields of a `contentBlock` but its content. -/
def decodeBlockFields (members : Entries) : Except String ContentBlock := do
  let field := bound codec contentBlockNames members
  let type ← decodeString "" (field "type")
  let text ← decodeString "" (field "text")
  let id ← decodeString "" (field "id")
  let name ← decodeString "" (field "name")
  let toolUseID ← decodeString "" (field "tool_use_id")
  let isError ← decodeBoolPtr (field "is_error")
  let thinking ← decodeString "" (field "thinking")
  let signature ← decodeString "" (field "signature")
  let data ← decodeString "" (field "data")
  return { type, text, id, name, input := rawMessage (field "input"), toolUseID, isError, thinking
           signature, data, cacheControl := rawMessage (field "cache_control") }

/-- `contentBlock.UnmarshalJSON`. -/
def decodeContentBlock : Json → Except String ContentBlock
  | .null => .ok { type := "" }
  | .obj members => do
    let cb ← decodeBlockFields codec members
    validateContentBlockMembers codec members cb
    let content ← decodeBlockContent codec
      (rawMessage (bound codec contentBlockNames members "content"))
    return { cb with content }
  | _ => .error "json: cannot unmarshal into Go value of type anthropic.rawBlock"

/-! ## Messages, tools and the system value -/

/-- `anthropicMessage`, with the raw elements of its content array beside the
decoded ones; a string content has none. -/
structure AnthropicMessage where
  role : String
  content : List ContentBlock
  contentRaw : List Json

def messageNames : List String := ["role", "content"]

/-- A string content is one text block, null is the empty string. -/
def decodeContent : Option Json → Except String (List ContentBlock × List Json)
  | some (.str s) => .ok ([{ type := "text", text := s }], [])
  | some .null => .ok ([{ type := "text", text := "" }], [])
  | some (.arr elems) =>
    Attempt.context "content: expected string or array"
      ((elems.mapM (decodeContentBlock codec)).map fun blocks => (blocks, elems))
  | _ => .error "content: expected string or array"

/-- `anthropicMessage.UnmarshalJSON`; it overwrites what stood in its place. -/
def decodeMessage : Json → Except String AnthropicMessage
  | .null => .error "content: expected string or array: unexpected end of JSON input"
  | .obj members => do
    let role ← decodeString "" (bound codec messageNames members "role")
    let content ← decodeContent codec (rawMessage (bound codec messageNames members "content"))
    return { role, content := content.1, contentRaw := content.2 }
  | _ => .error "json: cannot unmarshal into Go value of type anthropic.alias"

structure AnthropicToolDef where
  name : String := ""
  description : String := ""
  inputSchema : Option Json := none
  cacheControl : Option Json := none

def toolNames : List String := ["name", "description", "input_schema", "cache_control"]

/-- A tool definition is decoded over what stands in its place. -/
def decodeToolDef (old : AnthropicToolDef) : Json → Except String AnthropicToolDef
  | .null => .ok old
  | .obj members => do
    let field := bound codec toolNames members
    let name ← decodeString old.name (field "name")
    let description ← decodeString old.description (field "description")
    return { name, description
             inputSchema := (rawMessage (field "input_schema")).or old.inputSchema
             cacheControl := (rawMessage (field "cache_control")).or old.cacheControl }
  | _ => .error "json: cannot unmarshal into Go value of type anthropic.anthropicToolDef"

def systemNames : List String := ["type", "text", "cache_control"]

/-- One element of a system array: a text block, and nothing else. -/
def decodeSystemElement (e : Json × Nat) : Except String ContentBlock :=
  match e.1 with
  | .null => .error s!"system: element {e.2}: expected a text block"
  | .obj members =>
    match members.find? fun m => !systemNames.any fun name => resolves codec systemNames name m.1 with
    | some m => .error s!"system: element {e.2}: json: unknown field {codec.quote m.1}"
    | none => do
      let field := bound codec systemNames members
      let type ← Attempt.context s!"system: element {e.2}" (decodeString "" (field "type"))
      let text ← Attempt.context s!"system: element {e.2}" (decodeStringPtr (field "text"))
      match text with
      | some text =>
        if type = "text" then
          .ok { type := "text", text, cacheControl := rawMessage (field "cache_control") }
        else .error s!"system: element {e.2}: expected a text block with a text member"
      | none => .error s!"system: element {e.2}: expected a text block with a text member"
  | _ => .error s!"system: element {e.2}: json: cannot unmarshal into Go value"

/-- The system member: a string or an array of text blocks, never null. -/
def decodeSystem : Option Json → Except String (List ContentBlock)
  | none => .ok []
  | some (.str s) => .ok [{ type := "text", text := s }]
  | some (.arr elems) => elems.zipIdx.mapM (decodeSystemElement codec)
  | some _ => .error "system: expected string or array"

structure AnthropicRequest where
  model : String := ""
  maxTokens : Option Int := none
  temperature : Option UInt64 := none
  topP : Option UInt64 := none
  stopSequences : List String := []
  system : List ContentBlock := []
  messages : List AnthropicMessage := []
  tools : List AnthropicToolDef := []
  stream : Bool := false

def requestNames : List String :=
  ["model", "max_tokens", "temperature", "top_p", "stop_sequences", "system", "messages", "tools",
    "stream"]

/-- `anthropicRequest.UnmarshalJSON`. -/
def decodeRequest : Json → Except String AnthropicRequest
  | .null => .ok {}
  | .obj members => do
    let field := bound codec requestNames members
    let model ← decodeString "" (field "model")
    let maxTokens ← decodeNumber codec.parseInt (field "max_tokens")
    let temperature ← decodeNumber codec.parseFloat (field "temperature")
    let topP ← decodeNumber codec.parseFloat (field "top_p")
    let stopSequences ← decodeSlice "" decodeElemString (field "stop_sequences")
    let messages ← decodeSlice ⟨"", [], []⟩ (fun _ => decodeMessage codec) (field "messages")
    let tools ← decodeSlice {} (decodeToolDef codec) (field "tools")
    let stream ← decodeBool (field "stream")
    let system ← decodeSystem codec (rawMessage (field "system"))
    return { model, maxTokens, temperature, topP, stopSequences, system, messages, tools, stream }
  | _ => .error "json: cannot unmarshal into Go value of type anthropic.alias"

/-! ## Projecting blocks -/

def stripBlockFacts (names : List String) : Option Json → Except String RequiredJSONObject
  | some (.obj members) =>
    let payload := withoutMembers names members.toAList
    .ok ⟨codec.text payload, payload⟩
  | _ => .error "expected a JSON object block"

variable (members : Members)

/-- The type member of a nested element, where it is a string. -/
def nestedType : String :=
  match members.lookup "type" with
  | some (.str t) => t
  | _ => ""

def nestedKind : String :=
  if nestedType members = "" then "unknown" else nestedType members

/-- The text of a nested element that reads as text: its type is text or none. -/
def nestedText : Option String :=
  if nestedType members = "text" ∨ nestedType members = "" then
    match members.lookup "text" with
    | some (.str t) => some t
    | _ => none
  else none

/-- `anthropicNestedElement`. -/
def nestedElement : Json → Except String ToolResultContentBlock
  | .obj members =>
    match nestedText members.toAList with
    | some text => .ok { text }
    | none => do
      let kind := nestedKind members.toAList
      let payload ← Attempt.context s!"nested block {codec.quote kind} payload"
        (stripBlockFacts codec unknownNames (some (.obj members)))
      return { unknown := some { kind, payload } }
  | _ =>
    let kind := "unknown"
    .error s!"nested block {codec.quote kind} payload: expected a JSON object block"

/-- A cache member, as the breakpoint that follows what it closes. -/
def markerAfter (place : String) : Option Json → Except String (Option CacheBreakpointBlock)
  | none => .ok none
  | some v =>
    (Attempt.context place (parseRequired codec v)).map fun marker => some { marker }

/-- The cache member of a nested element. -/
def nestedMarker : Json → Option Json
  | .obj members => members.toAList.lookup "cache_control"
  | _ => none

/-- `anthropicNestedContentToEngine`: the element, and a breakpoint after it. -/
def nestedContentToEngine (v : Json) : Except String (List ToolResultContentBlock) := do
  let elem ← nestedElement codec v
  let marker ← markerAfter codec "nested cache_control" (nestedMarker v)
  return elem :: (marker.map fun m => { cacheBreakpoint := some m }).toList

/-- The content of a tool result; no element at all is one empty text. -/
def resultContent : Option Json → Except String (List ToolResultContentBlock)
  | some (.str s) => .ok [{ text := s }]
  | some (.arr elems) => do
    let content := (← elems.mapM (nestedContentToEngine codec)).flatten
    return if content.isEmpty then [{ text := "" }] else content
  | _ => .error "tool_result content: expected string or array"

/-- The kind of a block of an arm the adapter does not model. -/
def unmodelledKind (type : String) : String := if type = "" then "unknown" else type

variable (cb : ContentBlock)

/-- `anthropicBlockToEngine`. -/
def blockToEngine (raw : Option Json) : Except String Block :=
  match cb.type with
  | "text" => .ok { text := some { text := cb.text } }
  | "thinking" => .ok { thinking := some { text := cb.thinking, signature := cb.signature } }
  | "redacted_thinking" => .ok { redactedThinking := some { data := cb.data } }
  | "tool_use" => do
    let args ← Attempt.context s!"tool_use {codec.quote cb.name} input"
      (parseRequiredOrEmpty codec cb.input)
    return { toolUse := some { id := cb.id, name := cb.name, arguments := args } }
  | "tool_result" => do
    let content ← resultContent codec cb.content
    return { toolResult := some { toolCallID := cb.toolUseID, toolName := cb.name
                                  isError := cb.isError, content } }
  | _ => do
    let kind := unmodelledKind cb.type
    let payload ← Attempt.context s!"block {codec.quote kind} payload"
      (stripBlockFacts codec unknownNames raw)
    return { unknown := some { kind, payload } }

/-- A block of a body with the breakpoint its cache member stands for. -/
def blockWithMarker (raw : Option Json) : Except String (List Block) := do
  let block ← blockToEngine codec cb raw
  let marker ← markerAfter codec "content cache_control" cb.cacheControl
  return block :: (marker.map fun m => { cacheBreakpoint := some m }).toList

/-- A block of the system array; an empty text is no block. -/
def systemWithMarker : Except String (List Block) :=
  if cb.text = "" then .ok []
  else do
    let marker ← markerAfter codec "system cache_control" cb.cacheControl
    return { text := some { text := cb.text } } ::
      (marker.map fun m => { cacheBreakpoint := some m }).toList

/-! ## The request -/

def mapRole (r : String) : Role := r

def unmarshalMessage (am : AnthropicMessage) : Except String Message := do
  let blocks ← am.content.zipIdx.mapM fun b => blockWithMarker codec b.1 am.contentRaw[b.2]?
  return { role := mapRole am.role, blocks := blocks.flatten }

def unmarshalTool (t : AnthropicToolDef) : Except String ToolDef := do
  let params ← Attempt.context s!"tool {codec.quote t.name} input_schema"
    (parseRequiredOrEmpty codec t.inputSchema)
  let marker ← markerAfter codec s!"tool {codec.quote t.name} cache_control" t.cacheControl
  return { name := t.name
           description := t.description
           parameters := params
           cacheControl := marker.map fun m => m.marker.members }

/-- The system message, if the system array has a block. -/
def systemMessage (blocks : List Block) : List Message :=
  if blocks.isEmpty then [] else [{ role := roleSystem, blocks }]

def unmarshalBody (body : Json) : Except String ChatRequest := do
  let ar ← Attempt.context "anthropic unmarshal" (decodeRequest codec body)
  match validateMaxTokens ar.maxTokens with
  | .error err => .error s!"anthropic: {err}"
  | .ok () =>
    let ext ← Attempt.context "provider extensions"
      (parseOptionalJSONObjectExcluding body requestNames)
    let system := (← ar.system.mapM (systemWithMarker codec)).flatten
    let messages ← ar.messages.mapM (unmarshalMessage codec)
    let tools ← ar.tools.mapM (unmarshalTool codec)
    return { model := ar.model, messages := systemMessage system ++ messages, tools
             stream := ar.stream, maxTokens := ar.maxTokens, temperature := ar.temperature
             topP := ar.topP, stopSequences := ar.stopSequences
             providerExtensions := normalizeExtensionObject ext }

def unmarshal (body : Json) : Except String ChatRequest := do
  extractOutputFormat codec.toCodec .anthropic (← unmarshalBody codec body)

end unmarshal

end ToranaEdge.Format.Anthropic
