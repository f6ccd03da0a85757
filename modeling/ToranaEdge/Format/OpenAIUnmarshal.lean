import ToranaEdge.Format.OpenAI
import ToranaEdge.Format.Decode

/-! # Unmarshalling Chat Completions

Messages, tool calls and tool definitions are closed structs.  A content part
that is text is read for its text alone; any other keeps its members, with the
type taken out. -/

namespace ToranaEdge.Format.OpenAI

open Engine

/-! ## Wire structs -/

/-- `chatContent`: a string, or the raw parts of an array. -/
structure ChatContent where
  text : Option String := none
  parts : List Json := []
  present : Bool := false

/-- `chatContent.UnmarshalJSON`; null reads as the empty string. -/
def decodeChatContent (old : ChatContent) (values : List Json) : Except String ChatContent :=
  values.foldlM (fun _ v =>
    match v with
    | .str s => .ok { text := some s, present := true }
    | .null => .ok { text := some "", present := true }
    | .arr elems => .ok { parts := elems, present := true }
    | _ => .error "json: cannot unmarshal into Go value of type []json.RawMessage") old

/-- A struct decoded over the old one. -/
def decodeStruct {α : Type} (decode : α → Entries → Except String α) (old : α)
    (values : List Json) : Except String α :=
  values.foldlM (fun a v =>
    match v with
    | .null => .ok a
    | .obj members => decode a members
    | _ => .error "json: cannot unmarshal into Go value of a struct type") old

structure ChatToolFunc where
  name : String := ""
  arguments : String := ""

structure ChatToolCall where
  id : String := ""
  type : String := ""
  function : ChatToolFunc := {}

structure ChatMessage where
  role : String := ""
  content : ChatContent := {}
  reasoningContent : Option String := none
  toolCalls : Slice ChatToolCall := {}
  toolCallID : String := ""
  name : String := ""

structure ChatToolFuncDef where
  name : String := ""
  description : String := ""
  parameters : Option Json := none
  strict : Bool := false

structure ChatToolDef where
  type : String := ""
  function : ChatToolFuncDef := {}

def toolFuncNames : List String := ["name", "arguments"]

def toolCallNames : List String := ["id", "type", "function"]

def messageNames : List String :=
  ["role", "content", "reasoning_content", "tool_calls", "tool_call_id", "name"]

def toolFuncDefNames : List String := ["name", "description", "parameters", "strict"]

def toolDefNames : List String := ["type", "function"]

section decode

variable (codec : WireCodec)

def decodeToolFunc (old : ChatToolFunc) (members : Entries) : Except String ChatToolFunc := do
  let field := bound codec toolFuncNames members
  let name ← decodeString old.name (field "name")
  let arguments ← decodeString old.arguments (field "arguments")
  return { name, arguments }

def decodeToolCall (old : ChatToolCall) (members : Entries) : Except String ChatToolCall := do
  let field := bound codec toolCallNames members
  let id ← decodeString old.id (field "id")
  let type ← decodeString old.type (field "type")
  let function ← decodeStruct (decodeToolFunc codec) old.function (field "function")
  return { id, type, function }

/-- A pointer to a string, decoded over the old one. -/
def decodeStringPtrOver (old : Option String) (values : List Json) :
    Except String (Option String) :=
  if values.isEmpty then .ok old else decodeStringPtr values

def decodeChatMessage (old : ChatMessage) (members : Entries) : Except String ChatMessage := do
  let field := bound codec messageNames members
  let role ← decodeString old.role (field "role")
  let content ← decodeChatContent old.content (field "content")
  let reasoningContent ← decodeStringPtrOver old.reasoningContent (field "reasoning_content")
  let toolCalls ← (field "tool_calls").foldlM
    (Slice.decode {} fun call v => decodeStruct (decodeToolCall codec) call [v]) old.toolCalls
  let toolCallID ← decodeString old.toolCallID (field "tool_call_id")
  let name ← decodeString old.name (field "name")
  return { role, content, reasoningContent, toolCalls, toolCallID, name }

/-- A `bool`, decoded over the old one. -/
def decodeBoolOver (old : Bool) (values : List Json) : Except String Bool :=
  values.foldlM (fun b v =>
    match v with
    | .bool c => .ok c
    | .null => .ok b
    | _ => .error "json: cannot unmarshal into Go value of type bool") old

def decodeToolFuncDef (old : ChatToolFuncDef) (members : Entries) :
    Except String ChatToolFuncDef := do
  let field := bound codec toolFuncDefNames members
  let name ← decodeString old.name (field "name")
  let description ← decodeString old.description (field "description")
  let strict ← decodeBoolOver old.strict (field "strict")
  return { name, description, parameters := (rawMessage (field "parameters")).or old.parameters
           strict }

def decodeToolDef (old : ChatToolDef) (members : Entries) : Except String ChatToolDef := do
  let field := bound codec toolDefNames members
  let type ← decodeString old.type (field "type")
  let function ← decodeStruct (decodeToolFuncDef codec) old.function (field "function")
  return { type, function }

/-- `chatRequest`. -/
structure ChatBody where
  model : String := ""
  messages : List ChatMessage := []
  tools : List ChatToolDef := []
  stream : Bool := false
  maxTokens : Option Int := none
  temperature : Option UInt64 := none
  topP : Option UInt64 := none
  stop : Option Json := none

def requestNames : List String :=
  ["model", "messages", "tools", "stream", "max_tokens", "temperature", "top_p", "stop"]

/-- An `any`. -/
def decodeAny (values : List Json) : Except String (Option Json) :=
  if values.all codec.decodesAny then .ok (rawMessage values)
  else .error "json: cannot unmarshal number into Go value"

/-- `json.Unmarshal` into a `chatRequest`. -/
def decodeChatRequest : Json → Except String ChatBody
  | .null => .ok {}
  | .obj members => do
    let field := bound codec requestNames members
    let model ← decodeString "" (field "model")
    let messages ← decodeSlice {} (fun m v => decodeStruct (decodeChatMessage codec) m [v])
      (field "messages")
    let tools ← decodeSlice {} (fun t v => decodeStruct (decodeToolDef codec) t [v])
      (field "tools")
    let stream ← decodeBool (field "stream")
    let maxTokens ← decodeNumber codec.parseInt (field "max_tokens")
    let temperature ← decodeNumber codec.parseFloat (field "temperature")
    let topP ← decodeNumber codec.parseFloat (field "top_p")
    let stop ← decodeAny codec (field "stop")
    return { model, messages, tools, stream, maxTokens, temperature, topP, stop }
  | _ => .error "json: cannot unmarshal into Go value of type openai.chatRequest"

end decode

/-! ## Content parts -/

section parts

variable (codec : WireCodec)

/-- The kinds of part that are read as text. -/
def textKinds : List String := ["text", "input_text", "output_text"]

/-- `stripOpenAIPartFacts` of the type. -/
def stripOpenAIPartFacts (members : Entries) : RequiredJSONObject :=
  let payload := members.toAList.erase "type"
  ⟨codec.text payload, payload⟩

/-- The type a raw part is probed for; null has none. -/
def partType : Json → Except String String
  | .null => .ok ""
  | .obj members => decodeString "" (bound codec ["type"] members "type")
  | _ => .error "content part: json: cannot unmarshal into Go value of a struct type"

/-- The text of a raw part. -/
def partText : Json → Except String (Option String)
  | .null => .ok none
  | .obj members => decodeStringPtr (bound codec ["text"] members "text")
  | _ => .error "content part: json: cannot unmarshal into Go value of a struct type"

def openAIPartToBlock (p : Json) : Except String Block := do
  let type ← partType codec p
  if type ∈ textKinds then
    match ← partText codec p with
    | none => .error s!"openai: {type} part without a text member"
    | some text => return { text := some { text } }
  else if type = "" then .error "openai chat: content part without a type member"
  else
    match p with
    | .obj members =>
      return { unknown := some { kind := type, payload := stripOpenAIPartFacts codec members } }
    | _ => .error s!"content part {codec.quote type} payload: expected a JSON object part"

def openAIPartToToolResultContent (p : Json) : Except String ToolResultContentBlock := do
  let type ← partType codec p
  if type = "text" then
    match ← partText codec p with
    | none => .error "openai chat: text part without a text member"
    | some text => return { text }
  else if type = "" then .error "openai chat: content part without a type member"
  else
    match p with
    | .obj members =>
      return { unknown := some { kind := type, payload := stripOpenAIPartFacts codec members } }
    | _ => .error s!"content part {codec.quote type} payload: expected a JSON object part"

def chatToolResultContent (c : ChatContent) : Except String (List ToolResultContentBlock) :=
  if !c.present || c.text.isSome then .ok [{ text := c.text.getD "" }]
  else do
    let out ← c.parts.zipIdx.mapM fun p =>
      Attempt.context s!"tool result content[{p.2}]" (openAIPartToToolResultContent codec p.1)
    return if out.isEmpty then [{ text := "" }] else out

/-- `ParseRequiredObjectOrEmpty` of a text. -/
def parseArguments (raw : String) : Except String RequiredJSONObject :=
  if raw = "" then .ok {}
  else
    match codec.parse raw with
    | .error err => .error s!"raw JSON: {err}"
    | .ok (.obj members) => .ok ⟨raw, members.toAList⟩
    | .ok _ => .error "raw JSON must be a JSON object"

end parts

/-! ## Messages -/

section messages

variable (codec : WireCodec)

/-- The blocks of the content of a message. -/
def contentBlocks (c : ChatContent) : Except String (List Block) :=
  if c.present then
    match c.text with
    | some text => .ok [{ text := some { text } }]
    | none => c.parts.mapM (openAIPartToBlock codec)
  else .ok []

def toolCallBlock (tc : ChatToolCall) : Except String Block := do
  let args ← Attempt.context s!"tool call {codec.quote tc.function.name} arguments"
    (parseArguments codec tc.function.arguments)
  return { toolUse := some { id := tc.id, name := tc.function.name, arguments := args } }

variable (m : ChatMessage)

def reasoningBlocks : List Block :=
  (m.reasoningContent.map fun text => { thinking := some { text } }).toList

/-- The blocks of a message of another role than `tool`. -/
def messageBlocks : Except String (List Block) := do
  let content ← contentBlocks codec m.content
  let calls ← m.toolCalls.values.mapM (toolCallBlock codec)
  return content ++ reasoningBlocks m ++ calls

/-- A tool message: the result in the place of its content, after the reasoning. -/
def toolMessageBlocks (blocks : List Block) : Except String (List Block) :=
  if m.toolCallID = "" then .error "tool message missing tool_call_id"
  else do
    let content ← chatToolResultContent codec m.content
    let result : Block := { toolResult := some { toolCallID := m.toolCallID, toolName := m.name
                                                 content } }
    return blocks.filter (fun b => b.thinking.isSome) ++ [result]

/-- `convertChatMessage`; a message without a block has one empty text. -/
def convertChatMessage : Except String Message := do
  let blocks ← messageBlocks codec m
  let blocks ← if m.role = roleTool then toolMessageBlocks codec m blocks else .ok blocks
  return { role := m.role
           blocks := if blocks.isEmpty then [{ text := some { text := "" } }] else blocks }

def unmarshalTool (t : ChatToolDef) : Except String ToolDef := do
  let params ← Attempt.context s!"tool {codec.quote t.function.name} parameters"
    (parseRequiredOrEmpty codec t.function.parameters)
  return { name := t.function.name
           description := t.function.description
           parameters := params
           strict := t.function.strict }

/-! ## The request -/

def validateMaxTokens (n : Option Int) : Except String Unit :=
  match n.filter fun n => n < 1 ∨ 2147483647 < n with
  | some n => .error s!"openai chat: max_tokens {n} is outside 1..2147483647"
  | none => .ok ()

def stopSequencesOf : Option Json → Except String (List String)
  | none => .ok []
  | some .null => .ok []
  | some (.str s) => .ok [s]
  | some (.arr elems) => elems.zipIdx.mapM fun e =>
    match e.1 with
    | .str s => .ok s
    | _ => .error s!"openai chat: stop[{e.2}] must be a string"
  | some _ => .error "openai chat: stop must be a string or an array of strings"

def unmarshalChat (body : Json) : Except String ChatRequest := do
  let cr ← Attempt.context "openai chat unmarshal" (decodeChatRequest codec body)
  validateMaxTokens cr.maxTokens
  let stop ← stopSequencesOf cr.stop
  let ext ← Attempt.context "openai provider extensions"
    (parseOptionalJSONObjectExcluding body requestNames)
  let messages ← cr.messages.mapM (convertChatMessage codec)
  let tools ← cr.tools.mapM (unmarshalTool codec)
  return { model := cr.model, messages, tools, stream := cr.stream, maxTokens := cr.maxTokens
           temperature := cr.temperature, topP := cr.topP, stopSequences := stop
           providerExtensions := normalizeExtensionObject ext }

end messages

end ToranaEdge.Format.OpenAI
