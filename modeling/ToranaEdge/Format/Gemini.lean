import ToranaEdge.Format.Shared

/-! # Marshalling for Gemini and Code Assist

Both wires carry the same contents.  Code Assist wraps them in an envelope
whose extras are checked for canonical members first; the bare wire merges
the provider extensions over the body unchecked. -/

namespace ToranaEdge.Format.Gemini

open Engine

/-! ## Parts -/

structure GeminiPart where
  text : Option String := none
  thought : Bool := false
  thoughtSignature : String := ""
  functionCall : Option Json := none
  functionResponse : Option Json := none
  partMetadata : OptionalJSONObject := none

def GeminiPart.json (p : GeminiPart) : Json :=
  structJson [("text", p.text.map Json.str), ("thought", trueOnly p.thought),
    ("thoughtSignature", nonEmptyString p.thoughtSignature), ("functionCall", p.functionCall),
    ("functionResponse", p.functionResponse), ("partMetadata", p.partMetadata.map Members.json)]

def content (role : String) (parts : List Json) : Json :=
  structJson [("role", some (.str role)), ("parts", some (sliceJson parts))]

def geminiCanonicalPartMembers : List String :=
  ["text", "thought", "thoughtSignature", "functionCall", "functionResponse", "partMetadata"]

variable (codec : Codec) (u : UnknownBlock)

def rejectGeminiProjection : Except String Unit :=
  match geminiCanonicalPartMembers.find? fun name => (u.payload.members.lookup name).isSome with
  | some name =>
    .error (s!"gemini: unknown part payload duplicates canonical member {codec.quote name} " ++
      "(projection invariant)")
  | none => .ok ()

/-- `geminiPartWithFacts`: the token is quoted for Go and must read as JSON. -/
def geminiPartWithFacts (payload : Members) (signature : String)
    (partMetadata : OptionalJSONObject) : Except String Json := do
  let signed ← if signature = "" then .ok payload
    else match codec.parse (codec.quote signature) with
      | .error err => .error ("raw JSON member \"thoughtSignature\": " ++ err)
      | .ok value => .ok (payload.insert "thoughtSignature" value)
  match partMetadata with
  | none => return signed.json
  | some metadata => return Members.json (signed.insert "partMetadata" metadata.json)

def unknownPart : Except String Json := do
  rejectGeminiProjection codec u
  if u.signature ≠ "" ∨ u.partMetadataJson.isSome then
    geminiPartWithFacts codec u.payload.members u.signature u.partMetadataJson
  else return u.payload.members.json

/-! ## Tool results -/

/-- `json.Unmarshal` into a string; null leaves it empty. -/
def decodeString : Json → Option String
  | .str s => some s
  | .null => some ""
  | _ => none

def geminiSchedulingVocabulary : List String := ["SILENT", "WHEN_IDLE", "INTERRUPT"]

/-- The members a sealed function-response part must have; the name is optional. -/
def requiredMembers (arm : String) : List String :=
  if arm = "inlineData" then ["mimeType", "data"]
  else if arm = "fileData" then ["mimeType", "fileUri"]
  else []

def validateRequired (arm : String) (m : Members) (key : String) :
    Except String Unit :=
  match m.lookup key with
  | none => .error s!"{arm} requires member {codec.quote key}"
  | some raw =>
    match decodeString raw with
    | none => .error s!"{arm} member {codec.quote key} must be a string"
    | some s =>
      if s = "" then .error s!"{arm} member {codec.quote key} must be non-empty" else .ok ()

def validateFuncRespPartInner (arm : String) (inner : Json) :
    Except String Members :=
  match decodeMap inner with
  | none => .error s!"{arm} is not an object"
  | some m => do
    (requiredMembers arm).forM (validateRequired codec arm m)
    match m.keys.find? fun key => ¬ (key ∈ requiredMembers arm ∨ key = "displayName") with
    | some key => .error s!"{arm} has an unknown inner member {codec.quote key}"
    | none =>
      match m.lookup "displayName" with
      | none => return m
      | some raw =>
        match decodeString raw with
        | none => .error s!"{arm} member displayName must be a string"
        | some _ => return m

/-- `validateFuncRespPartWrapper`: exactly one arm, checked. -/
def validateFuncRespPartWrapper (payload : Members) :
    Except String (String × Members) :=
  match payload.entries with
  | [] => .error "FunctionResponsePart has no arm"
  | ⟨arm, inner⟩ :: rest =>
    if arm ≠ "inlineData" ∧ arm ≠ "fileData" then
      .error s!"FunctionResponsePart has an unknown outer member {codec.quote arm}"
    else if ¬ rest.isEmpty then .error "FunctionResponsePart has more than one arm"
    else do return (arm, ← validateFuncRespPartInner codec arm inner)

def stringMember (m : Members) (key : String) : String :=
  ((m.lookup key).bind decodeString).getD ""

def geminiFuncRespPartFromUnknown : Except String Json :=
  match validateFuncRespPartWrapper codec u.payload.members with
  | .error err => .error s!"gemini: FunctionResponsePart payload: {err}"
  | .ok (arm, m) =>
    .ok (structJson [(arm, some (structJson
      (((requiredMembers arm).map fun key => (key, some (.str (stringMember m key)))) ++
        [("displayName", nonEmptyString (stringMember m "displayName"))])))])

/-- `geminiResponseObject`: an object is emitted as it is, other text is wrapped. -/
def geminiResponseObject (text : String) (codeAssist isError : Bool) : Json :=
  let wrapped :=
    if isError then structJson [("error", some (.str text))]
    else if codeAssist then structJson [("output", some (.str text))]
    else structJson [("content", some (.str text))]
  if text = "" then wrapped
  else
    match codec.parse text with
    | .ok (.obj members) =>
      if !isError || (List.dlookup "error" members).isSome then .obj members else wrapped
    | _ => wrapped

def laterResultPart (c : ToolResultContentBlock) : Except String Json :=
  match c.unknown with
  | none =>
    .error ("gemini: only the first element may be text; subsequent elements must be " ++
      "media parts")
  | some u => geminiFuncRespPartFromUnknown codec u

variable (codeAssist : Bool)

def geminiToolResultWire (tr : ToolResultBlock) :
    Except String Json :=
  match tr.scheduling.filter fun s => s ∉ geminiSchedulingVocabulary with
  | some s => .error s!"gemini: tool result scheduling {codec.quote s} is not in the vocabulary"
  | none =>
    match tr.content with
    | [] => .error "gemini: tool result content must be non-empty"
    | first :: rest =>
      if first.unknown.isSome ∨ first.cacheBreakpoint.isSome then
        .error "gemini: the FIRST tool-result element must be the response text"
      else do
        let parts ← rest.mapM (laterResultPart codec)
        return structJson [("name", some (.str tr.toolName)),
          ("response", some (geminiResponseObject codec first.text codeAssist
            (tr.isError == some true))), ("id", nonEmptyString tr.toolCallID),
          ("willContinue", tr.willContinue.map Json.bool),
          ("scheduling", tr.scheduling.map Json.str), ("parts", nonEmptySlice parts)]

def toolResultPart (tr : ToolResultBlock) :
    Except String Json := do
  let response ← geminiToolResultWire codec codeAssist tr
  return GeminiPart.json { thoughtSignature := tr.signature, partMetadata := tr.partMetadataJson
                           functionResponse := some response }

/-! ## Contents -/

def blockKindName (b : Block) : String := firstArm "none" b

def systemPart (b : Block) : Except String Json :=
  match b.text with
  | none =>
    .error (s!"gemini: system message has a {blockKindName b} block, " ++
      "not representable in the text-only system array")
  | some t => .ok (GeminiPart.json { text := some t.text, partMetadata := t.partMetadataJson })

def buildSystemInstruction (messages : List Message) : Except String (Option Json) := do
  let system := messages.filter fun m => m.role = roleSystem
  if system.isEmpty then return none
  else
    let parts ← (system.flatMap Message.blocks).mapM systemPart
    return some (content "user" parts)

def userPart (b : Block) : Except String Json :=
  match b.text, b.unknown, b.toolResult with
  | some t, _, _ =>
    .ok (GeminiPart.json { text := some t.text, partMetadata := t.partMetadataJson })
  | none, some u, _ => unknownPart codec u
  | none, none, some r => toolResultPart codec codeAssist r
  | none, none, none => .error "gemini: block kind not representable in a user content"

/-- An assistant body being split: its text content, its tool calls, and the
contents already emitted, which are its tool results. -/
structure Assistant where
  textParts : Option (List Json) := none
  toolParts : List Json := []
  out : List Json := []

def Assistant.addText (a : Assistant) (part : Json) : Assistant :=
  { a with textParts := some (a.textParts.getD [] ++ [part]) }

def toolResultRole : String := if codeAssist then "model" else "user"

def toolUsePart (t : ToolUseBlock) : Json :=
  GeminiPart.json
    { thoughtSignature := t.signature, partMetadata := t.partMetadataJson
      functionCall := some (structJson [("name", some (.str t.name)),
        ("args", some t.arguments.members.json), ("id", nonEmptyString t.id)]) }

def assistantBlock (a : Assistant) (b : Block) :
    Except String Assistant :=
  match b.text, b.thinking, b.unknown, b.toolUse, b.toolResult, b.trailingSignature with
  | some t, _, _, _, _, _ =>
    .ok (a.addText (GeminiPart.json { text := some t.text, thoughtSignature := t.signature
                                      partMetadata := t.partMetadataJson }))
  | none, some t, _, _, _, _ =>
    .ok (a.addText (GeminiPart.json { thought := true, text := some t.text
                                      thoughtSignature := t.signature
                                      partMetadata := t.partMetadataJson }))
  | none, none, some u, _, _, _ => do return a.addText (← unknownPart codec u)
  | none, none, none, some t, _, _ => .ok { a with toolParts := a.toolParts ++ [toolUsePart t] }
  | none, none, none, none, some r, _ => do
    let part ← toolResultPart codec codeAssist r
    return { a with out := a.out ++ [content (toolResultRole codeAssist) [part]] }
  | none, none, none, none, none, some t =>
    .ok (a.addText (GeminiPart.json { text := some "", thoughtSignature := t.signature
                                      partMetadata := t.partMetadataJson }))
  | none, none, none, none, none, none =>
    .error "gemini: block kind not representable in an assistant content"

/-- The contents of a finished assistant body: results, text, calls. -/
def Assistant.contents (a : Assistant) : List Json :=
  a.out ++ (a.textParts.map (content "model")).toList ++
    (if a.toolParts.isEmpty then [] else [content "model" a.toolParts])

def toolBlock (b : Block) : Except String Json :=
  match b.toolResult with
  | none => .error "gemini: tool-role message with a non-tool-result block"
  | some r => do
    let part ← toolResultPart codec codeAssist r
    return content (toolResultRole codeAssist) [part]

def messageContents (m : Message) :
    Except String (List Json) :=
  -- system text goes through the system instruction alone
  if m.role = roleSystem then .ok []
  else if m.role = roleUser then do
    let parts ← m.blocks.mapM (userPart codec codeAssist)
    if parts.isEmpty then return [] else return [content "user" parts]
  else if m.role = roleAssistant then do
    return (← m.blocks.foldlM (assistantBlock codec codeAssist) {}).contents
  else if m.role = roleTool then m.blocks.mapM (toolBlock codec codeAssist)
  else .error s!"gemini: unmodelled message role {codec.quote m.role}"

def buildContents (messages : List Message) :
    Except String (List Json) := do
  return (← messages.mapM (messageContents codec codeAssist)).flatten

/-- `buildTools`: one tool holds every declaration. -/
def buildTools (tools : List ToolDef) : List Json :=
  if tools.isEmpty then []
  else [structJson [("functionDeclarations", some (.arr (tools.map fun t =>
    structJson [("name", some (.str t.name)), ("description", nonEmptyString t.description),
      ("parameters", some t.parameters.members.json)])))]]

/-! ## The generation config -/

def canonicalGenerationMembers : List String :=
  ["maxOutputTokens", "temperature", "topP", "stopSequences"]

variable (chat : ChatRequest)

/-- The canonical members a request sets, in the order it sets them. -/
def generationMembers :
    Except String (List (String × Option Json)) := do
  let temperature ← encodeOptFloat codec chat.temperature
  let topP ← encodeOptFloat codec chat.topP
  return [("maxOutputTokens", chat.maxTokens.map encodeInt), ("temperature", temperature),
    ("topP", topP), ("stopSequences", nonEmptySlice (stringsJson chat.stopSequences))]

/-- The preserved `generationConfig` of the extensions. -/
def generationConfigOf (inner : OptionalJSONObject) : Except String OptionalJSONObject :=
  match inner.bind (AList.lookup "generationConfig") with
  | none => .ok none
  | some raw =>
    match parseOptionalJSONObject (some raw) with
    | .error err =>
      .error s!"code assist extensions: generationConfig must be a strict JSON object: {err}"
    | .ok gc => .ok gc

def setField (gc : OptionalJSONObject) (field : String × Option Json) : OptionalJSONObject :=
  match field.2 with
  | none => gc
  | some value => gc.setMember field.1 value

/-- `rebuildGenerationConfig`: canonical members come from the request alone. -/
def rebuildGenerationConfig (inner : OptionalJSONObject) :
    Except String OptionalJSONObject := do
  let gc ← generationConfigOf inner
  let siblings := canonicalGenerationMembers.foldl OptionalJSONObject.deleteMember gc
  match (← generationMembers codec chat).foldl setField siblings with
  | none => return inner.deleteMember "generationConfig"
  | some rebuilt => return inner.setMember "generationConfig" rebuilt.json

/-! ## Code Assist -/

def envelopeRequestMember : String := "request"

def innerCanonical : List String := ["systemInstruction", "contents", "tools", "safetySettings"]

/-- The first of the named members an extras object carries. -/
def smuggled (names : List String) (m : Members) : Option String :=
  names.find? fun name => (m.lookup name).isSome

def verifyEnvelopeConfig (inner : Members) : Except String Unit :=
  match inner.lookup "generationConfig" with
  | none => .ok ()
  | some raw =>
    match parseRequiredJSONObject raw with
    | .error err =>
      .error s!"code assist envelope: generationConfig must be a strict JSON object: {err}"
    | .ok gc =>
      match smuggled canonicalGenerationMembers gc with
      | some name =>
        .error (s!"code assist envelope: canonical generationConfig member {codec.quote name} " ++
          "smuggled through the extras path")
      | none => .ok ()

def verifyCodeAssistEnvelope (env : Members) : Except String Unit :=
  match smuggled ["model"] env with
  | some name =>
    .error (s!"code assist envelope: canonical outer member {codec.quote name} " ++
      "smuggled through the extras path")
  | none =>
    match env.lookup envelopeRequestMember with
    | none =>
      .error (s!"code assist envelope: missing {codec.quote envelopeRequestMember} " ++
        "structural member")
    | some raw =>
      match parseRequiredJSONObject raw with
      | .error err =>
        .error (s!"code assist envelope: {codec.quote envelopeRequestMember} must be a strict " ++
          s!"JSON object: {err}")
      | .ok inner =>
        match smuggled innerCanonical inner with
        | some name =>
          .error (s!"code assist envelope: canonical inner member {codec.quote name} " ++
            "smuggled through the extras path")
        | none => verifyEnvelopeConfig codec inner

/-- Sets a member, or deletes it when the request has none. -/
def setOrDelete (obj : OptionalJSONObject) (key : String) : Option Json → OptionalJSONObject
  | none => obj.deleteMember key
  | some value => obj.setMember key value

/-- `marshalCodeAssist`.  An absent envelope is the empty one. -/
def marshalCodeAssist (sys : Option Json)
    (contents tools : List Json) : Except String Members := do
  let env := chat.providerExtensions.getD
    (structMembers [(envelopeRequestMember, some (structJson []))])
  if (env.lookup envelopeRequestMember).isNone then
    .error (s!"code assist envelope: present envelope missing the structural " ++
      s!"{codec.quote envelopeRequestMember} member")
  else
    verifyCodeAssistEnvelope codec env
    let extra ← parseOptionalJSONObject (env.lookup envelopeRequestMember)
    let safe := setOrDelete extra "safetySettings" (chat.safetySettings.map Json.arr)
    let configured ← rebuildGenerationConfig codec chat safe
    let withContents := configured.setMember "contents" (sliceJson contents)
    let withSystem := setOrDelete withContents "systemInstruction" sys
    let request := setOrDelete withSystem "tools" (nonEmptySlice tools)
    return ((env.erase envelopeRequestMember).insert "model" (.str chat.model)).insert
      envelopeRequestMember (Members.json (request.getD ∅))

/-! ## The request -/

def encodeSafetySettings : OptionalJSONArray → Except String (Option Json)
  | none => .ok none
  | some settings =>
    match codec.recode settings with
    | .error err => .error s!"gemini safety settings: {err}"
    | .ok recoded => .ok (nonEmptySlice recoded)

/-- The `geminiRequest` of a bare request; its generation config is merged in
with the extensions. -/
def geminiRequest :
    Except String (List (String × Option Json)) := do
  let sys ← buildSystemInstruction chat.messages
  let contents ← buildContents codec false chat.messages
  let safetySettings ← encodeSafetySettings codec chat.safetySettings
  return [("systemInstruction", sys), ("contents", some (sliceJson contents)),
    ("tools", nonEmptySlice (buildTools chat.tools)), ("safetySettings", safetySettings)]

/-- The bare wire: extensions, with the generation config rebuilt in them, over
the body. -/
def marshalBare : Except String Members := do
  let fields ← geminiRequest codec chat
  match rebuildGenerationConfig codec chat chat.providerExtensions with
  | .error err => .error s!"gemini provider extensions: {err}"
  | .ok exts => spliceExtensions "gemini provider extensions" (structMembers fields) exts

def marshalBody : Except String Members := do
  match validateFullRequest codec chat with
  | .error err => .error s!"gemini: {err}"
  | .ok () =>
    rejectFreeformTools codec "gemini" chat
    if chat.codeAssist then
      let sys ← buildSystemInstruction chat.messages
      let contents ← buildContents codec true chat.messages
      marshalCodeAssist codec chat sys contents (buildTools chat.tools)
    else marshalBare codec chat

def marshal : Except String Members := do
  validateOutputFormatExtras .gemini chat
  applyOutputFormat codec .gemini chat (← marshalBody codec chat)

end ToranaEdge.Format.Gemini
