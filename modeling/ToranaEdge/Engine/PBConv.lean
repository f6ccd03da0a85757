import ToranaEdge.Engine.Types
import ToranaEdge.Lib.Attempt
import ToranaEdge.Request.Types

/-! # The request across the plugin ABI

`pbconv` turns the engine's request into the protobuf request a plugin is
shown, and a protobuf request back into the engine's.  The checked direction
first refuses what the conversion would discard.

The two ABIs differ in one point that the check does not look at: a tool use
and a tool definition hold the payload of both invocation kinds in the engine,
and only the payload of its own kind crosses.  The same goes for the metadata
of an unknown element inside a tool result, which has no field to cross in, and
for an invocation kind that does not fit the 32 bits of a protobuf enum.  These
are what a request must not use for the round trip to be exact. -/

namespace ToranaEdge.PBConv

open Attempt List Option Int32
open Engine (RequiredJSONObject OptionalJSONObject OptionalJSONArray nestedArms validateEngineBlock)

/-! ## JSON authorities as bytes -/

/-- What the conversion takes from elsewhere: the strict JSON text rules and the
plugin SDK's validators. -/
structure Codec where
  /-- The text an object authority holds. -/
  objectBytes : Members → Bytes
  /-- The text an array authority holds. -/
  arrayBytes : List Json → Bytes
  /-- `validateObjectShape` of bytes that are there: the text, and what it decodes to. -/
  validateObject : Bytes → Except String RequiredJSONObject
  /-- The same for an array. -/
  validateArray : Bytes → Except String (List Json)
  /-- `ValidateReplacement`. -/
  validateReplacement : ChatRequest → Except String Unit
  /-- `OutputFormat.Validate`. -/
  validateOutputFormat : OutputFormat → Except String Unit
  /-- `fmt` with the verb `%q`. -/
  quote : String → String

/-- `RequiredJSONObject.Bytes`. -/
def requiredBytes (r : RequiredJSONObject) : Bytes := utf8 r.text

section codec

variable (codec : Codec)

/-- `OptionalJSONObject.Bytes`: nil when absent. -/
def optionalBytes : OptionalJSONObject → Bytes
  | none => []
  | some members => codec.objectBytes members

/-- `OptionalJSONArray.Bytes`: nil when absent. -/
def optionalArrayBytes : OptionalJSONArray → Bytes
  | none => []
  | some elems => codec.arrayBytes elems

variable (raw : Bytes)

def parseOptionalJSONObject : Except String OptionalJSONObject :=
  if raw = [] then .ok none else (codec.validateObject raw).map fun r => some r.members

def parseOptionalJSONArray : Except String OptionalJSONArray :=
  if raw = [] then .ok none else (codec.validateArray raw).map some

def parseRequiredJSONObject : Except String RequiredJSONObject :=
  if raw = [] then .error "raw JSON: empty bytes are not a JSON object"
  else codec.validateObject raw

def parseRequiredObjectOrEmpty : Except String RequiredJSONObject :=
  if raw = [] then .ok {} else parseRequiredJSONObject codec raw

/-- A required object whose text is one the strict rules accept, with its members. -/
def RequiredHeld (r : RequiredJSONObject) : Prop :=
  requiredBytes r ≠ [] ∧ codec.validateObject (requiredBytes r) = .ok r

/-- An optional object whose text is one the strict rules accept, with its members. -/
def ObjectHeld (o : OptionalJSONObject) : Prop :=
  ∀ members ∈ o, codec.objectBytes members ≠ [] ∧
    ∃ text, codec.validateObject (codec.objectBytes members) = .ok ⟨text, members⟩

/-- An optional array whose text is one the strict rules accept, with its elements. -/
def ArrayHeld (a : OptionalJSONArray) : Prop :=
  ∀ elems ∈ a, codec.arrayBytes elems ≠ [] ∧
    codec.validateArray (codec.arrayBytes elems) = .ok elems

variable {codec} {r : RequiredJSONObject}

lemma parseRequired_bytes (h : RequiredHeld codec r) :
    parseRequiredJSONObject codec (requiredBytes r) = .ok r := by
  rw [parseRequiredJSONObject, if_neg h.1, h.2]

lemma parseRequiredOrEmpty_bytes (h : RequiredHeld codec r) :
    parseRequiredObjectOrEmpty codec (requiredBytes r) = .ok r := by
  rw [parseRequiredObjectOrEmpty, if_neg h.1, parseRequired_bytes h]

lemma parseOptional_bytes {o : OptionalJSONObject} (h : ObjectHeld codec o) :
    parseOptionalJSONObject codec (optionalBytes codec o) = .ok o := by
  cases o with
  | none => rfl
  | some members =>
  obtain ⟨hbytes, text, hparse⟩ := h members rfl
  rw [optionalBytes, parseOptionalJSONObject, if_neg hbytes, hparse]
  rfl

lemma parseOptionalArray_bytes {a : OptionalJSONArray} (h : ArrayHeld codec a) :
    parseOptionalJSONArray codec (optionalArrayBytes codec a) = .ok a := by
  cases a with
  | none => rfl
  | some elems =>
  obtain ⟨hbytes, hparse⟩ := h elems rfl
  rw [optionalArrayBytes, parseOptionalJSONArray, if_neg hbytes, hparse]
  rfl

end codec

/-! ## The invocation kind -/

/-- The Go `int` behind an engine kind. -/
def kindCode : Engine.ToolInvocationKind → Int
  | .function => 0
  | .freeform => 1
  | .other code _ => code

/-- The protobuf kind of a number. -/
def pbKindOfNumber (n : Int32) : ToolInvocationKind :=
  if h0 : n = 0 then .function
  else if h1 : n = 1 then .freeform
  else .unrecognized n ⟨h0, h1⟩

/-- The engine kind of a Go `int`. -/
def engineKindOfCode (code : Int) : Engine.ToolInvocationKind :=
  if h0 : code = 0 then .function
  else if h1 : code = 1 then .freeform
  else .other code ⟨h0, h1⟩

variable (k : Engine.ToolInvocationKind)

/-- `pb.ToolInvocationKind(k)`: the low 32 bits. -/
def toPBKind : ToolInvocationKind :=
  pbKindOfNumber (Int32.ofInt (kindCode k))

/-- `engine.ToolInvocationKind(k)`. -/
def fromPBKind (k : ToolInvocationKind) : Engine.ToolInvocationKind :=
  engineKindOfCode k.number.toInt

/-- The kinds a protobuf enum can hold. -/
def KindFits : Prop :=
  -2147483648 ≤ kindCode k ∧ kindCode k ≤ 2147483647

lemma number_pbKindOfNumber (n : Int32) : (pbKindOfNumber n).number = n := by
  unfold pbKindOfNumber
  split
  next h0 => rw [h0]; rfl
  next h0 =>
    split
    next h1 => rw [h1]; rfl
    next h1 => rfl

lemma kindCode_engineKindOfCode (code : Int) : kindCode (engineKindOfCode code) = code := by
  unfold engineKindOfCode
  split
  next h0 => rw [h0]; rfl
  next h0 =>
    split
    next h1 => rw [h1]; rfl
    next h1 => rfl

lemma engineKindOfCode_kindCode : engineKindOfCode (kindCode k) = k := by
  cases k with
  | function | freeform => rfl
  | other code h => simp [engineKindOfCode, kindCode, h.1, h.2]

/-- A kind comes back as it was exactly when it fits. -/
lemma fromPBKind_toPBKind_iff : fromPBKind (toPBKind k) = k ↔ KindFits k := by
  have hcode : kindCode (fromPBKind (toPBKind k)) = (ofInt (kindCode k)).toInt := by
    rw [fromPBKind, kindCode_engineKindOfCode, toPBKind, number_pbKindOfNumber]
  constructor
  · intro h
    rw [h] at hcode
    have hle := le_toInt (ofInt (kindCode k))
    have hlt := toInt_lt (ofInt (kindCode k))
    unfold KindFits
    omega
  · intro h
    have hnumber : (ofInt (kindCode k)).toInt = kindCode k :=
      toInt_ofInt_of_le h.1 (by have := h.2; omega)
    rw [← engineKindOfCode_kindCode (fromPBKind (toPBKind k)), hcode, hnumber,
      engineKindOfCode_kindCode]

/-- A kind that fits is the freeform kind on both sides or on neither. -/
lemma toPBKind_eq_freeform {k : Engine.ToolInvocationKind} (h : KindFits k) :
    toPBKind k = .freeform ↔ k = .freeform := by
  constructor
  · intro hfree
    rw [← (fromPBKind_toPBKind_iff k).mpr h, hfree]
    rfl
  · intro hfree
    rw [hfree]
    rfl

/-! ## To the plugin -/

section toPB

variable (codec : Codec)

/-- An element with several arms crosses as the first of unknown, marker and text. -/
def toPBToolResultContent (e : Engine.ToolResultContentBlock) : ToolResultContentBlock :=
  match e.unknown, e.cacheBreakpoint with
  | some u, _ =>
    { kind := some (.unknown { kind := u.kind, payloadJson := requiredBytes u.payload }) }
  | none, some m => { kind := some (.cacheBreakpoint { markerJson := requiredBytes m.marker }) }
  | none, none => { kind := some (.text { text := e.text }) }

def toPBText (b : Engine.TextBlock) : RequestTextBlock :=
  { text := b.text
    signature := b.signature
    partMetadataJson := optionalBytes codec b.partMetadataJson }

def toPBThinking (b : Engine.ThinkingBlock) : RequestThinkingBlock :=
  { text := b.text
    signature := b.signature
    partMetadataJson := optionalBytes codec b.partMetadataJson }

/-- Of the two payloads of a tool use only that of its kind crosses. -/
def toPBToolUse (b : Engine.ToolUseBlock) : RequestToolUseBlock :=
  { id := b.id
    name := b.name
    argumentsJson := if b.invocationKind = .freeform then [] else requiredBytes b.arguments
    signature := b.signature
    partMetadataJson := optionalBytes codec b.partMetadataJson
    inputText := if b.invocationKind = .freeform then b.inputText else none
    invocationKind := toPBKind b.invocationKind }

def toPBToolResult (b : Engine.ToolResultBlock) : RequestToolResultBlock :=
  { toolCallId := b.toolCallID
    toolName := b.toolName
    content := b.content.map toPBToolResultContent
    partMetadataJson := optionalBytes codec b.partMetadataJson
    willContinue := b.willContinue
    scheduling := b.scheduling
    signature := b.signature
    invocationKind := toPBKind b.invocationKind
    isError := b.isError }

def toPBUnknown (b : Engine.UnknownBlock) : RequestUnknownBlock :=
  { kind := b.kind
    payloadJson := requiredBytes b.payload
    partMetadataJson := optionalBytes codec b.partMetadataJson
    signature := b.signature }

def toPBTrailingSignature (b : Engine.TrailingSignatureBlock) : RequestTrailingSignatureBlock :=
  { signature := b.signature
    partMetadataJson := optionalBytes codec b.partMetadataJson }

/-- The first arm that is set. -/
def toPBBlock (b : Engine.Block) : RequestBlock :=
  { kind :=
      (b.text.map fun k => .text (toPBText codec k)).or <|
      (b.thinking.map fun k => .thinking (toPBThinking codec k)).or <|
      (b.redactedThinking.map fun k => .redactedThinking { data := k.data }).or <|
      (b.toolUse.map fun k => .toolUse (toPBToolUse codec k)).or <|
      (b.toolResult.map fun k => .toolResult (toPBToolResult codec k)).or <|
      (b.cacheBreakpoint.map fun k =>
        .cacheBreakpoint { markerJson := requiredBytes k.marker }).or <|
      (b.unknown.map fun k => .unknown (toPBUnknown codec k)).or <|
      b.trailingSignature.map fun k => .trailingSignature (toPBTrailingSignature codec k) }

def toPBMessage (m : Engine.Message) : Message :=
  { role := m.role, blocks := m.blocks.map (toPBBlock codec) }

/-- Of the two schemas of a tool definition only that of its kind crosses. -/
def toPBTool (t : Engine.ToolDef) : ToolDef :=
  { name := t.name
    description := t.description
    parametersJson := if t.invocationKind = .freeform then [] else requiredBytes t.parameters
    strict := t.strict
    cacheControlJson := optionalBytes codec t.cacheControl
    invocationKind := toPBKind t.invocationKind
    inputFormatJson := if t.invocationKind = .freeform then requiredBytes t.inputFormat else []
    namespacePath := t.namespacePath }

def toPBOutputFormat (f : Engine.OutputFormat) : OutputFormat :=
  { mode := f.mode
    name := f.name
    schemaJson := optionalBytes codec f.schema
    strict := f.strict }

variable (c : Engine.ChatRequest)

/-- Neither the Code Assist envelope nor the OpenAI variant and layout cross. -/
def toPBChatRequest : ChatRequest :=
  { model := c.model
    messages := c.messages.map (toPBMessage codec)
    tools := c.tools.map (toPBTool codec)
    stream := c.stream
    maxTokens := c.maxTokens.map Int32.ofInt
    temperature := c.temperature
    topP := c.topP
    stopSequences := c.stopSequences
    providerExtensionsJson := optionalBytes codec c.providerExtensions
    safetySettingsJson := optionalArrayBytes codec c.safetySettings
    outputFormat := c.outputFormat.map (toPBOutputFormat codec)
    toranaMetaJson := optionalBytes codec c.toranaMeta }

/-- `ValidateFullRequest`: the engine's own check, then the SDK's on the projection. -/
def validateFullRequest : Except String Unit := do
  context "invalid engine request" (Engine.validateEngineRequest c)
  context "engine request fails the replacement contract"
    (codec.validateReplacement (toPBChatRequest codec c))

def toPBChatRequestChecked : Except String ChatRequest := do
  validateFullRequest codec c
  return toPBChatRequest codec c

end toPB

/-! ## From the plugin -/

section fromPB

variable (codec : Codec)

def pbPartMetadata (raw : Bytes) (what : String) : Except String OptionalJSONObject :=
  context s!"{what} part_metadata_json" (parseOptionalJSONObject codec raw)

variable (what : String)

def fromPBToolResultContent (e : ToolResultContentBlock) :
    Except String Engine.ToolResultContentBlock :=
  match e.kind with
  | some (.text k) => .ok { text := k.text }
  | some (.unknown k) => do
    let payload ← context s!"{what}.unknown payload_json"
      (parseRequiredJSONObject codec k.payloadJson)
    return { unknown := some { kind := k.kind, payload } }
  | some (.cacheBreakpoint k) => do
    let marker ← context s!"{what}.cache_breakpoint marker_json"
      (parseRequiredJSONObject codec k.markerJson)
    return { cacheBreakpoint := some { marker } }
  | none => .error s!"{what} has no kind arm"

def fromPBToolUse (k : RequestToolUseBlock) : Except String Engine.ToolUseBlock := do
  let args ← (
    if k.invocationKind = .freeform then .ok {}
    else context s!"{what}.tool_use arguments_json"
      (parseRequiredObjectOrEmpty codec k.argumentsJson))
  let pm ← pbPartMetadata codec k.partMetadataJson s!"{what}.tool_use"
  return { id := k.id
           name := k.name
           arguments := args
           inputText := k.inputText
           invocationKind := fromPBKind k.invocationKind
           signature := k.signature
           partMetadataJson := pm }

def fromPBToolResult (k : RequestToolResultBlock) :
    Except String Engine.ToolResultBlock := do
  let pm ← pbPartMetadata codec k.partMetadataJson s!"{what}.tool_result"
  let content ← k.content.zipIdx.mapM fun e =>
    fromPBToolResultContent codec s!"{what}.tool_result content[{e.2}]" e.1
  return { toolCallID := k.toolCallId, toolName := k.toolName, isError := k.isError, content
           partMetadataJson := pm, willContinue := k.willContinue, scheduling := k.scheduling
           signature := k.signature, invocationKind := fromPBKind k.invocationKind }

/-- A refusal is no arm of a request the engine knows. -/
def fromPBBlock (b : RequestBlock) : Except String Engine.Block :=
  match b.kind with
  | some (.text k) => do
    let pm ← pbPartMetadata codec k.partMetadataJson s!"{what}.text"
    return { text := some ⟨k.text, k.signature, pm⟩ }
  | some (.thinking k) => do
    let pm ← pbPartMetadata codec k.partMetadataJson s!"{what}.thinking"
    return { thinking := some ⟨k.text, k.signature, pm⟩ }
  | some (.redactedThinking k) => .ok { redactedThinking := some ⟨k.data⟩ }
  | some (.toolUse k) => do
    let use ← fromPBToolUse codec what k
    return { toolUse := some use }
  | some (.toolResult k) => do
    let result ← fromPBToolResult codec what k
    return { toolResult := some result }
  | some (.cacheBreakpoint k) => do
    let marker ← context s!"{what}.cache_breakpoint marker_json"
      (parseRequiredJSONObject codec k.markerJson)
    return { cacheBreakpoint := some ⟨marker⟩ }
  | some (.unknown k) => do
    let payload ← context s!"{what}.unknown payload_json"
      (parseRequiredJSONObject codec k.payloadJson)
    let pm ← pbPartMetadata codec k.partMetadataJson s!"{what}.unknown"
    return { unknown := some ⟨k.kind, payload, pm, k.signature⟩ }
  | some (.trailingSignature k) => do
    let pm ← pbPartMetadata codec k.partMetadataJson s!"{what}.trailing_signature"
    return { trailingSignature := some ⟨k.signature, pm⟩ }
  | some (.refusal _) => .error s!"{what} has no kind arm"
  | none => .error s!"{what} has no kind arm"

def fromPBMessage (m : Message) : Except String Engine.Message := do
  let blocks ← m.blocks.zipIdx.mapM fun b =>
    fromPBBlock codec s!"pb message blocks[{b.2}]" b.1
  return { role := m.role, blocks }

/-- The schema of a free-form tool is required, that of a function may be left out. -/
def fromPBTool (t : ToolDef) : Except String Engine.ToolDef := do
  let inputFormat ← (
    if t.invocationKind = .freeform then
      context s!"pb tool {codec.quote t.name} input_format_json"
        (parseRequiredJSONObject codec t.inputFormatJson)
    else .ok {})
  let params ← (
    if t.invocationKind = .freeform then .ok {} else
      context s!"pb tool {codec.quote t.name} parameters_json"
        (parseRequiredObjectOrEmpty codec t.parametersJson))
  let cacheControl ← context s!"pb tool {codec.quote t.name} cache_control_json"
    (parseOptionalJSONObject codec t.cacheControlJson)
  return { name := t.name, description := t.description, parameters := params, strict := t.strict
           cacheControl, invocationKind := fromPBKind t.invocationKind, inputFormat
           namespacePath := t.namespacePath }

def fromPBOutputFormat : Option OutputFormat → Except String (Option Engine.OutputFormat)
  | none => .ok none
  | some f => do
    context "pb output format" (codec.validateOutputFormat f)
    let schema ← parseOptionalJSONObject codec f.schemaJson
    return some { mode := f.mode, name := f.name, schema, strict := f.strict }

/-- The host-only facts of the result are their zero values. -/
def fromPBChatRequest (c : ChatRequest) : Except String Engine.ChatRequest := do
  let outputFormat ← fromPBOutputFormat codec c.outputFormat
  let providerExtensions ← context "pb provider_extensions_json"
    (parseOptionalJSONObject codec c.providerExtensionsJson)
  let safetySettings ← context "pb safety_settings_json"
    (parseOptionalJSONArray codec c.safetySettingsJson)
  let toranaMeta ← context "pb torana_meta_json"
    (parseOptionalJSONObject codec c.toranaMetaJson)
  let messages ← c.messages.zipIdx.mapM fun m => fromPBMessage codec m.1
  let tools ← c.tools.zipIdx.mapM fun t => fromPBTool codec t.1
  return { model := c.model, messages, tools, stream := c.stream
           maxTokens := c.maxTokens.map Int32.toInt, temperature := c.temperature, topP := c.topP
           stopSequences := c.stopSequences, outputFormat, safetySettings, providerExtensions
           toranaMeta }

end fromPB

/-! ## What a request holds, and what of it crosses -/

section held

variable (codec : Codec)

def NestedHeld (e : Engine.ToolResultContentBlock) : Prop :=
  (∀ u ∈ e.unknown, RequiredHeld codec u.payload) ∧
    ∀ m ∈ e.cacheBreakpoint, RequiredHeld codec m.marker

structure BlockHeld (b : Engine.Block) : Prop where
  text : ∀ k ∈ b.text, ObjectHeld codec k.partMetadataJson
  thinking : ∀ k ∈ b.thinking, ObjectHeld codec k.partMetadataJson
  toolUse : ∀ k ∈ b.toolUse,
    RequiredHeld codec k.arguments ∧ ObjectHeld codec k.partMetadataJson
  toolResult : ∀ k ∈ b.toolResult,
    (∀ e ∈ k.content, NestedHeld codec e) ∧ ObjectHeld codec k.partMetadataJson
  cacheBreakpoint : ∀ k ∈ b.cacheBreakpoint, RequiredHeld codec k.marker
  unknown : ∀ k ∈ b.unknown, RequiredHeld codec k.payload ∧ ObjectHeld codec k.partMetadataJson
  trailingSignature : ∀ k ∈ b.trailingSignature, ObjectHeld codec k.partMetadataJson

structure ToolHeld (t : Engine.ToolDef) : Prop where
  parameters : RequiredHeld codec t.parameters
  inputFormat : RequiredHeld codec t.inputFormat
  cacheControl : ObjectHeld codec t.cacheControl

/-- Every JSON authority of the request holds a text the strict rules accept, with
the value it decodes to.  The wrappers of the engine admit nothing else. -/
structure Held (c : Engine.ChatRequest) : Prop where
  messages : ∀ m ∈ c.messages, ∀ b ∈ m.blocks, BlockHeld codec b
  tools : ∀ t ∈ c.tools, ToolHeld codec t
  outputFormat : ∀ f ∈ c.outputFormat, ObjectHeld codec f.schema
  safetySettings : ArrayHeld codec c.safetySettings
  providerExtensions : ObjectHeld codec c.providerExtensions
  toranaMeta : ObjectHeld codec c.toranaMeta

/-- The SDK accepts only requests whose output format is valid. -/
def AcceptsWellFormed : Prop :=
  ∀ p, codec.validateReplacement p = .ok () →
    ∀ f ∈ p.outputFormat, codec.validateOutputFormat f = .ok ()

end held

/-- An unknown element of a tool result crosses without metadata and signature. -/
def NestedCarried (e : Engine.ToolResultContentBlock) : Prop :=
  ∀ u ∈ e.unknown, u.partMetadataJson = none ∧ u.signature = ""

/-- The payload of the kind a tool use is not of is empty. -/
def ToolUseCarried (b : Engine.ToolUseBlock) : Prop :=
  KindFits b.invocationKind ∧
    if b.invocationKind = .freeform then b.arguments = {} else b.inputText = none

def ToolResultCarried (b : Engine.ToolResultBlock) : Prop :=
  KindFits b.invocationKind ∧ ∀ e ∈ b.content, NestedCarried e

def BlockCarried (b : Engine.Block) : Prop :=
  (∀ k ∈ b.toolUse, ToolUseCarried k) ∧ ∀ k ∈ b.toolResult, ToolResultCarried k

/-- The schema of the kind a tool is not of is empty. -/
def ToolCarried (t : Engine.ToolDef) : Prop :=
  KindFits t.invocationKind ∧
    if t.invocationKind = .freeform then t.parameters = {} else t.inputFormat = {}

/-- The request holds no payload the conversion ignores. -/
def NoIgnoredPayload (c : Engine.ChatRequest) : Prop :=
  (∀ m ∈ c.messages, ∀ b ∈ m.blocks, BlockCarried b) ∧ ∀ t ∈ c.tools, ToolCarried t

/-- Equal in every field but the host-only facts. -/
def SameApartFromTopology (c' c : Engine.ChatRequest) : Prop :=
  { c' with
    codeAssist := c.codeAssist
    openAIVariant := c.openAIVariant
    responsesInstructions := c.responsesInstructions
    responsesInputLayout := c.responsesInputLayout } = c

/-! ## Element by element -/

/-- The blocks with one arm set. -/
inductive OneArm : Engine.Block → Prop where
  | text (k : Engine.TextBlock) : OneArm { text := some k }
  | thinking (k : Engine.ThinkingBlock) : OneArm { thinking := some k }
  | redactedThinking (k : Engine.RedactedThinkingBlock) : OneArm { redactedThinking := some k }
  | toolUse (k : Engine.ToolUseBlock) : OneArm { toolUse := some k }
  | toolResult (k : Engine.ToolResultBlock) : OneArm { toolResult := some k }
  | cacheBreakpoint (k : Engine.CacheBreakpointBlock) : OneArm { cacheBreakpoint := some k }
  | unknown (k : Engine.UnknownBlock) : OneArm { unknown := some k }
  | trailingSignature (k : Engine.TrailingSignatureBlock) :
    OneArm { trailingSignature := some k }

variable {b : Engine.Block}

lemma OneArm.of_blockArms (h : Engine.blockArms b = 1) : OneArm b := by
  obtain ⟨text, thinking, redacted, use, result, marker, unknown, trailing⟩ := b
  have hnone : ∀ {α : Type} {o : Option α}, o.isSome.toNat = 0 ↔ o = none := by simp
  have hsome : ∀ {α : Type} {o : Option α}, o.isSome.toNat = 1 ↔ ∃ k, o = some k := by
    simp [isSome_iff_exists]
  simp only [Engine.blockArms, Nat.add_eq_one_iff, Nat.add_eq_zero_iff, hnone, hsome] at h
  -- Arm after arm from the last: once one is set, the count leaves none before it.
  rcases h with ⟨h, k, rfl⟩ | ⟨⟨h, k, rfl⟩ | ⟨⟨h, k, rfl⟩ | ⟨⟨h, k, rfl⟩ | ⟨⟨h, k, rfl⟩ |
    ⟨⟨h, k, rfl⟩ | ⟨⟨h, k, rfl⟩ | ⟨⟨k, rfl⟩, h⟩, rfl⟩, rfl⟩, rfl⟩, rfl⟩, rfl⟩, rfl⟩
  all_goals
    simp only [h]
    constructor

lemma of_validateNested {k : Nat} {es : List Engine.ToolResultContentBlock}
    (h : Engine.validateNested k es = .ok ()) : ∀ e ∈ es, nestedArms e ≤ 1 := by
  induction es generalizing k with
  | nil =>
    intro e he
    cases he
  | cons e es ih =>
  obtain ⟨harms, h⟩ := guard_eq_ok.mp h
  rw [forall_mem_cons]
  exact ⟨by omega, ih h⟩

/-- A block the engine accepts has one arm, and so has every element of its tool result. -/
lemma oneArm_of_validateEngineBlock (h : validateEngineBlock b = .ok ()) :
    OneArm b ∧ ∀ r ∈ b.toolResult, ∀ e ∈ r.content, nestedArms e ≤ 1 := by
  unfold validateEngineBlock at h
  split at h
  · cases h
  obtain ⟨hone, h⟩ := guard_eq_ok.mp h
  refine ⟨.of_blockArms (not_not.mp hone), ?_⟩
  intro r hr
  rw [mem_def.mp hr] at h
  dsimp only at h
  split at h
  · cases h
  · exact of_validateNested h

variable {codec : Codec} {what : String}

lemma fromPBToolResultContent_iff {e : Engine.ToolResultContentBlock}
    (harms : nestedArms e ≤ 1) (hheld : NestedHeld codec e) :
    fromPBToolResultContent codec what (toPBToolResultContent e) = .ok e ↔ NestedCarried e := by
  obtain ⟨text, unknown, marker⟩ := e
  simp only [nestedArms] at harms
  cases unknown with
  | some u =>
    rw [isSome_some, Bool.toNat_true] at harms
    obtain rfl : marker = none := by simpa using (by omega : marker.isSome.toNat = 0)
    have htext : text = "" := by
      by_contra hne
      simp [hne] at harms
    subst htext
    have hparse := parseRequired_bytes (hheld.1 u rfl)
    have hread : fromPBToolResultContent codec what (toPBToolResultContent ⟨"", some u, none⟩) =
        .ok ⟨"", some { kind := u.kind, payload := u.payload }, none⟩ := by
      simp only [toPBToolResultContent, fromPBToolResultContent, hparse]
      rfl
    rw [hread]
    obtain ⟨kind, payload, metadata, signature⟩ := u
    constructor
    · intro h
      cases h
      intro v hv
      cases hv
      exact ⟨rfl, rfl⟩
    · intro h
      obtain ⟨hmetadata, hsignature⟩ := h _ rfl
      simp only at hmetadata hsignature
      rw [hmetadata, hsignature]
  | none =>
    have hcarried : NestedCarried ⟨text, none, marker⟩ := by
      intro u hu
      cases hu
    refine iff_of_true ?_ hcarried
    cases marker with
    | none => rfl
    | some m =>
    have htext : text = "" := by
      by_contra hne
      simp [hne] at harms
    subst htext
    have hparse := parseRequired_bytes (hheld.2 m rfl)
    simp only [toPBToolResultContent, fromPBToolResultContent, hparse]
    rfl

lemma pbPartMetadata_bytes {o : OptionalJSONObject}
    (h : ObjectHeld codec o) : pbPartMetadata codec (optionalBytes codec o) what = .ok o :=
  context_eq_ok.mpr (parseOptional_bytes h)

variable {b : Engine.ToolUseBlock} {t : Engine.ToolDef}

/-- What arrives of a tool use whose kind fits: the payload of its kind. -/
lemma fromPBToolUse_toPBToolUse (hargs : RequiredHeld codec b.arguments)
    (hmetadata : ObjectHeld codec b.partMetadataJson) (hfits : KindFits b.invocationKind) :
    fromPBToolUse codec what (toPBToolUse codec b) =
      .ok (if b.invocationKind = .freeform then { b with arguments := {} }
        else { b with inputText := none }) := by
  have hkind := (fromPBKind_toPBKind_iff _).mpr hfits
  have hpm := @pbPartMetadata_bytes codec s!"{what}.tool_use" _ hmetadata
  simp only [fromPBToolUse, toPBToolUse, toPBKind_eq_freeform hfits, hpm, hkind]
  by_cases hfree : b.invocationKind = .freeform
  · simp only [if_pos hfree]
    rfl
  · simp only [if_neg hfree, parseRequiredOrEmpty_bytes hargs]
    rfl

lemma fromPBToolUse_iff
    (hargs : RequiredHeld codec b.arguments) (hmetadata : ObjectHeld codec b.partMetadataJson) :
    fromPBToolUse codec what (toPBToolUse codec b) = .ok b ↔ ToolUseCarried b := by
  by_cases hfits : KindFits b.invocationKind
  · rw [fromPBToolUse_toPBToolUse hargs hmetadata hfits, ToolUseCarried, and_iff_right hfits]
    obtain ⟨id, name, arguments, inputText, kind, signature, metadata⟩ := b
    by_cases hfree : kind = .freeform <;> simp [hfree, eq_comm]
  refine iff_of_false ?_ fun h => hfits h.1
  intro h
  obtain ⟨args, -, pm, -, h⟩ := bind₂_eq_ok.mp h
  exact hfits ((fromPBKind_toPBKind_iff _).mp (congrArg (·.invocationKind) (Except.ok.inj h)))

lemma fromPBToolResult_iff {b : Engine.ToolResultBlock} (harms : ∀ e ∈ b.content, nestedArms e ≤ 1)
    (hcontent : ∀ e ∈ b.content, NestedHeld codec e)
    (hmetadata : ObjectHeld codec b.partMetadataJson) :
    fromPBToolResult codec what (toPBToolResult codec b) = .ok b ↔ ToolResultCarried b := by
  have hpm := @pbPartMetadata_bytes codec s!"{what}.tool_result" _ hmetadata
  have helems := @mapM_zipIdx_map_eq_ok _ _ _ b.content toPBToolResultContent
    (fun e => fromPBToolResultContent codec s!"{what}.tool_result content[{e.2}]" e.1)
    NestedCarried 0
    fun e he i => fromPBToolResultContent_iff (harms e he) (hcontent e he)
  constructor
  · intro h
    obtain ⟨pm, -, content, hread, h⟩ := bind₂_eq_ok.mp h
    have hb := Except.ok.inj h
    obtain rfl : content = b.content := congrArg (·.content) hb
    exact ⟨(fromPBKind_toPBKind_iff _).mp (congrArg (·.invocationKind) hb), helems.mp hread⟩
  · rintro ⟨hfits, hcarried⟩
    have hkind := (fromPBKind_toPBKind_iff _).mpr hfits
    have hread := helems.mpr hcarried
    apply bind_eq_ok.mpr
    refine ⟨b.partMetadataJson, hpm, bind_eq_ok.mpr ⟨b.content, hread, ?_⟩⟩
    show Except.ok { b with invocationKind := fromPBKind (toPBKind b.invocationKind) } = _
    rw [hkind]

/-- A block with one arm comes back as it was exactly when its arm does. -/
lemma fromPBBlock_iff {b : Engine.Block}
    (hvalid : validateEngineBlock b = .ok ()) (hheld : BlockHeld codec b) :
    fromPBBlock codec what (toPBBlock codec b) = .ok b ↔ BlockCarried b := by
  obtain ⟨hone, hcontent⟩ := oneArm_of_validateEngineBlock hvalid
  -- Every arm but a tool use and a tool result crosses whole.
  cases hone with
  | text k =>
    refine iff_of_true ?_ ⟨by simp, by simp⟩
    exact bind_eq_ok.mpr ⟨_, pbPartMetadata_bytes (hheld.text k rfl), rfl⟩
  | thinking k =>
    refine iff_of_true ?_ ⟨by simp, by simp⟩
    exact bind_eq_ok.mpr ⟨_, pbPartMetadata_bytes (hheld.thinking k rfl), rfl⟩
  | redactedThinking k => exact iff_of_true rfl ⟨by simp, by simp⟩
  | toolUse k =>
    obtain ⟨hargs, hmetadata⟩ := hheld.toolUse k rfl
    have huse := @fromPBToolUse_iff codec what k hargs hmetadata
    have hcarried : BlockCarried { toolUse := some k } ↔ ToolUseCarried k := by
      simp [BlockCarried]
    rw [hcarried, ← huse]
    exact bind_pure_eq_ok fun use h => by simpa using h
  | toolResult k =>
    obtain ⟨helems, hmetadata⟩ := hheld.toolResult k rfl
    have hresult := @fromPBToolResult_iff codec what k (hcontent k rfl) helems hmetadata
    have hcarried : BlockCarried { toolResult := some k } ↔ ToolResultCarried k := by
      simp [BlockCarried]
    rw [hcarried, ← hresult]
    exact bind_pure_eq_ok fun result h => by simpa using h
  | cacheBreakpoint k =>
    refine iff_of_true ?_ ⟨by simp, by simp⟩
    have hmarker := parseRequired_bytes (hheld.cacheBreakpoint k rfl)
    exact bind_eq_ok.mpr ⟨k.marker, context_eq_ok.mpr hmarker, rfl⟩
  | unknown k =>
    obtain ⟨hpayload, hmetadata⟩ := hheld.unknown k rfl
    refine iff_of_true ?_ ⟨by simp, by simp⟩
    exact bind_eq_ok.mpr ⟨_, context_eq_ok.mpr (parseRequired_bytes hpayload),
      bind_eq_ok.mpr ⟨_, pbPartMetadata_bytes hmetadata, rfl⟩⟩
  | trailingSignature k =>
    refine iff_of_true ?_ ⟨by simp, by simp⟩
    exact bind_eq_ok.mpr ⟨_, pbPartMetadata_bytes (hheld.trailingSignature k rfl), rfl⟩

lemma fromPBMessage_iff {m : Engine.Message}
    (hvalid : ∀ b ∈ m.blocks, validateEngineBlock b = .ok ())
    (hheld : ∀ b ∈ m.blocks, BlockHeld codec b) :
    fromPBMessage codec (toPBMessage codec m) = .ok m ↔ ∀ b ∈ m.blocks, BlockCarried b := by
  have hblocks := @mapM_zipIdx_map_eq_ok _ _ _ m.blocks (toPBBlock codec)
    (fun b => fromPBBlock codec s!"pb message blocks[{b.2}]" b.1) BlockCarried 0
    fun b hb i => fromPBBlock_iff (hvalid b hb) (hheld b hb)
  rw [← hblocks]
  exact bind_pure_eq_ok fun blocks h => congrArg Engine.Message.blocks h

/-- What arrives of a tool whose kind fits: the schema of its kind. -/
lemma fromPBTool_toPBTool (hheld : ToolHeld codec t) (hfits : KindFits t.invocationKind) :
    fromPBTool codec (toPBTool codec t) =
      .ok (if t.invocationKind = .freeform then { t with parameters := {} }
        else { t with inputFormat := {} }) := by
  have hkind := (fromPBKind_toPBKind_iff _).mpr hfits
  have hcache := parseOptional_bytes hheld.cacheControl
  simp only [fromPBTool, toPBTool, toPBKind_eq_freeform hfits, hcache, hkind]
  by_cases hfree : t.invocationKind = .freeform
  · simp only [if_pos hfree, parseRequired_bytes hheld.inputFormat]
    rfl
  · simp only [if_neg hfree, parseRequiredOrEmpty_bytes hheld.parameters]
    rfl

lemma fromPBTool_iff (hheld : ToolHeld codec t) :
    fromPBTool codec (toPBTool codec t) = .ok t ↔ ToolCarried t := by
  by_cases hfits : KindFits t.invocationKind
  · rw [fromPBTool_toPBTool hheld hfits, ToolCarried, and_iff_right hfits]
    obtain ⟨name, description, parameters, strict, cacheControl, kind, inputFormat, path⟩ := t
    by_cases hfree : kind = .freeform <;> simp [hfree, eq_comm]
  refine iff_of_false ?_ fun h => hfits h.1
  intro h
  obtain ⟨inputFormat, -, params, -, cacheControl, -, h⟩ := bind₃_eq_ok.mp h
  exact hfits ((fromPBKind_toPBKind_iff _).mp (congrArg (·.invocationKind) (Except.ok.inj h)))

/-! ## The request -/

lemma maxTokens_roundTrip {n : Option Int} (h : Engine.validateMaxTokens n = .ok ()) :
    (n.map ofInt).map toInt = n := by
  cases n with
  | none => rfl
  | some n =>
  obtain ⟨hrange, h⟩ := guard_eq_ok.mp h
  simp only [Engine.maxInt32] at hrange
  have hn : (ofInt n).toInt = n := toInt_ofInt_of_le (by omega) (by omega)
  rw [map_some, map_some, hn]

lemma outputFormat_roundTrip {f : Option Engine.OutputFormat}
    (hheld : ∀ f' ∈ f, ObjectHeld codec f'.schema)
    (hvalid : ∀ f' ∈ f.map (toPBOutputFormat codec), codec.validateOutputFormat f' = .ok ()) :
    fromPBOutputFormat codec (f.map (toPBOutputFormat codec)) = .ok f := by
  cases f with
  | none => rfl
  | some f =>
  have hschema := parseOptional_bytes (hheld f rfl)
  exact bind_eq_ok.mpr ⟨(), context_eq_ok.mpr (hvalid _ rfl),
    bind_eq_ok.mpr ⟨f.schema, hschema, rfl⟩⟩

/-- What the checked direction has checked, and that its result is the projection. -/
lemma of_toPBChatRequestChecked {c : Engine.ChatRequest} {p : ChatRequest}
    (h : toPBChatRequestChecked codec c = .ok p) : Engine.validateMaxTokens c.maxTokens = .ok () ∧
      (∀ m ∈ c.messages, ∀ b ∈ m.blocks, validateEngineBlock b = .ok ()) ∧
      codec.validateReplacement (toPBChatRequest codec c) = .ok () ∧
      p = toPBChatRequest codec c := by
  obtain ⟨_, hfull, h⟩ := bind_eq_ok.mp h
  cases h
  obtain ⟨_, hengine, hreplacement⟩ := bind_eq_ok.mp hfull
  have hengine := context_eq_ok.mp hengine
  obtain ⟨_, hmaxTokens, _, -, _, -, hengine⟩ := bind₃_eq_ok.mp hengine
  obtain ⟨_, hmessages, -⟩ := bind_eq_ok.mp hengine
  refine ⟨hmaxTokens, ?_, context_eq_ok.mp hreplacement, rfl⟩
  intro m hm
  exact Engine.of_validateEach (Engine.of_validateEach hmessages m hm)

/-- A codec that knows the empty object and the empty array. -/
def emptyCodec : Codec where
  objectBytes _ := utf8 "\x7b\x7d"
  arrayBytes _ := utf8 "[]"
  validateObject raw :=
    if raw = utf8 "\x7b\x7d" then .ok {} else .error "raw JSON: not the empty object"
  validateArray raw := if raw = utf8 "[]" then .ok [] else .error "raw JSON: not the empty array"
  validateReplacement _ := .ok ()
  validateOutputFormat _ := .ok ()
  quote s := "\"" ++ s ++ "\""

/-- A function call with the input of a free-form call beside its arguments. -/
def callRequest (inputText : Option String) : Engine.ChatRequest :=
  { model := "m"
    messages :=
      [{ role := Engine.roleUser, blocks := [{ text := some { text := "list the files" } }] },
       { role := Engine.roleAssistant
         blocks := [{ toolUse := some { id := "call_1", name := "run", inputText } }] }] }

lemma acceptsWellFormed_emptyCodec : AcceptsWellFormed emptyCodec := by
  intro p _ f _
  rfl

lemma requiredHeld_empty : RequiredHeld emptyCodec {} := ⟨by decide, rfl⟩

lemma held_callRequest (inputText : Option String) : Held emptyCodec (callRequest inputText) where
  messages := by
    intro m hm b hb
    rcases mem_pair.mp hm with rfl | rfl
    · rw [mem_singleton.mp hb]
      constructor <;> simp [ObjectHeld]
    · rw [mem_singleton.mp hb]
      constructor <;> simp [ObjectHeld, requiredHeld_empty]
  tools := by simp [callRequest]
  outputFormat := by simp [callRequest]
  safetySettings := by simp [callRequest, ArrayHeld]
  providerExtensions := by simp [callRequest, ObjectHeld]
  toranaMeta := by simp [callRequest, ObjectHeld]

/-- A request the checked direction accepts comes back with every fact but the
host-only ones exactly when it holds no payload the conversion ignores. -/
theorem fromPBChatRequest_checked_iff {codec : Codec} {c : Engine.ChatRequest} {p : ChatRequest}
    (hsdk : AcceptsWellFormed codec) (hheld : Held codec c)
    (haccept : toPBChatRequestChecked codec c = .ok p) :
    (∃ c', fromPBChatRequest codec p = .ok c' ∧ SameApartFromTopology c' c) ↔
      NoIgnoredPayload c := by
  obtain ⟨hmaxTokens, hblocks, hreplacement, rfl⟩ := of_toPBChatRequestChecked haccept
  have hmessages := @mapM_zipIdx_map_eq_ok _ _ _ c.messages (toPBMessage codec)
    (fun m => fromPBMessage codec m.1) (fun m => ∀ b ∈ m.blocks, BlockCarried b) 0
    fun m hm _ => fromPBMessage_iff (hblocks m hm) (hheld.messages m hm)
  have htools := @mapM_zipIdx_map_eq_ok _ _ _ c.tools (toPBTool codec)
    (fun t => fromPBTool codec t.1) ToolCarried 0
    fun t ht _ => fromPBTool_iff (hheld.tools t ht)
  constructor
  · rintro ⟨c', h, hsame⟩
    obtain ⟨outputFormat, -, extensions, -, safety, -, h⟩ := bind₃_eq_ok.mp h
    obtain ⟨toranaMeta, -, messages, hreadMessages, tools, hreadTools, h⟩ := bind₃_eq_ok.mp h
    cases h
    obtain rfl : messages = c.messages := congrArg Engine.ChatRequest.messages hsame
    obtain rfl : tools = c.tools := congrArg Engine.ChatRequest.tools hsame
    exact ⟨hmessages.mp hreadMessages, htools.mp hreadTools⟩
  · rintro ⟨hcarriedMessages, hcarriedTools⟩
    have houtput := outputFormat_roundTrip hheld.outputFormat (hsdk _ hreplacement)
    have hextensions := parseOptional_bytes hheld.providerExtensions
    have hsafety := parseOptionalArray_bytes hheld.safetySettings
    have hmeta := parseOptional_bytes hheld.toranaMeta
    refine ⟨_, bind_eq_ok.mpr ⟨_, houtput, bind_eq_ok.mpr ⟨_,
      context_eq_ok.mpr hextensions, bind_eq_ok.mpr ⟨_, context_eq_ok.mpr hsafety,
      bind_eq_ok.mpr ⟨_, context_eq_ok.mpr hmeta, bind_eq_ok.mpr ⟨_,
      hmessages.mpr hcarriedMessages, bind_eq_ok.mpr ⟨_, htools.mpr hcarriedTools, rfl⟩⟩⟩⟩⟩⟩, ?_⟩
    have htokens := maxTokens_roundTrip hmaxTokens
    unfold SameApartFromTopology
    simp [toPBChatRequest, htokens]

theorem fromPBChatRequest_checked_iff_functionCall :
    ∃ c', fromPBChatRequest emptyCodec (toPBChatRequest emptyCodec (callRequest none)) = .ok c' ∧
      SameApartFromTopology c' (callRequest none) := by
  refine (fromPBChatRequest_checked_iff acceptsWellFormed_emptyCodec (held_callRequest none)
    rfl).mpr ⟨?_, by simp [callRequest]⟩
  intro m hm b hb
  rcases mem_pair.mp hm with rfl | rfl
  · rw [mem_singleton.mp hb]
    simp [BlockCarried]
  · rw [mem_singleton.mp hb]
    simp [BlockCarried, ToolUseCarried, KindFits, kindCode]

/-- The input of a free-form call on a function call is accepted and lost. -/
theorem fromPBChatRequest_inputText_lost :
    AcceptsWellFormed emptyCodec ∧ Held emptyCodec (callRequest (some "ls")) ∧
      toPBChatRequestChecked emptyCodec (callRequest (some "ls")) =
        .ok (toPBChatRequest emptyCodec (callRequest (some "ls"))) ∧
      fromPBChatRequest emptyCodec (toPBChatRequest emptyCodec (callRequest (some "ls"))) =
        .ok (callRequest none) ∧
      ¬ SameApartFromTopology (callRequest none) (callRequest (some "ls")) := by
  refine ⟨acceptsWellFormed_emptyCodec, held_callRequest _, rfl, rfl, ?_⟩
  intro h
  have hmessages : (callRequest none).messages = (callRequest (some "ls")).messages :=
    congrArg Engine.ChatRequest.messages h
  simp [callRequest] at hmessages

end ToranaEdge.PBConv
