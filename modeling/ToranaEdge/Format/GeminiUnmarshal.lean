import ToranaEdge.Format.Gemini
import ToranaEdge.Format.Decode

/-! # Unmarshalling Gemini and Code Assist

A part is read twice: a grammar over its raw members finds the one arm it has,
and a typed decode reads the arms the adapter models.  The grammar compares
names exactly, the decode does not, so a name in another case is an unknown arm
to the first and a known one to the second.

A call without an id gets one from a hash of its name and arguments and a
counter of that hash; a response without an id takes the id of the last call of
its name. -/

namespace ToranaEdge.Format.Gemini

open Engine

/-! ## What comes from elsewhere -/

structure GeminiCodec extends WireCodec where
  /-- `sha256.Sum256` of a text. -/
  sha256 : String → Vector UInt8 32
  /-- The text that the arguments or the response of a part have in the body: of
      the part with the second index, in the content with the first. -/
  spelling : Nat → Nat → Json → String

instance : Coe GeminiCodec WireCodec := ⟨GeminiCodec.toWireCodec⟩

/-! ## The grammar of parts -/

/-- `geminiAncillaryPartMembers` and `geminiMediaAncillaryMembers`. -/
def geminiAncillaryPartMembers : List String := ["thought", "thoughtSignature", "partMetadata"]

def geminiMediaAncillaryMembers : List String := ["videoMetadata", "mediaResolution"]

def mediaArms : List String := ["inlineData", "fileData"]

/-- The members of a part that are no modifiers. -/
def armMembers (m : Members) : List String :=
  m.keys.filter fun key =>
    !geminiAncillaryPartMembers.contains key && !geminiMediaAncillaryMembers.contains key

def geminiFunctionResponseMembers : List String :=
  ["name", "response", "id", "willContinue", "scheduling", "parts"]

section grammar

variable (codec : WireCodec)

def validateGeminiFuncRespPart (place : String) (raw : Json) : Except String Unit :=
  match decodeMap raw with
  | none => .error s!"gemini: {place}: FunctionResponsePart is not an object"
  | some m =>
    match validateFuncRespPartWrapper codec.toCodec m with
    | .error err => .error s!"gemini: {place}: {err}"
    | .ok _ => .ok ()

def decodeRawSlice (values : List Json) : Except String (List Json) :=
  decodeSlice Json.null (fun _ v => .ok v) values

def validateGeminiFunctionResponse (place : String) (raw : Json) : Except String Unit :=
  match decodeMap raw with
  | none => .error s!"gemini: {place} part functionResponse: json: cannot unmarshal"
  | some m =>
    match m.keys.find? fun key => !geminiFunctionResponseMembers.contains key with
    | some key =>
      .error (s!"gemini: {place} part functionResponse: unknown member {codec.quote key} " ++
        "(the approved inventory is name/response/id/willContinue/scheduling/parts)")
    | none => do
      -- every member names a field exactly
      let field (key : String) := (m.lookup key).toList
      let name ← Format.decodeString "" (field "name")
      let _ ← decodeBoolPtr (field "willContinue")
      let scheduling ← decodeStringPtr (field "scheduling")
      let parts ← decodeRawSlice (field "parts")
      if name = "" then .error s!"gemini: {place} part functionResponse: name is required"
      else if !(m.lookup "response" matches some (.obj _)) then
        .error s!"gemini: {place} part functionResponse: response must be a JSON object"
      else
        match scheduling.filter fun s => s ∉ geminiSchedulingVocabulary with
        | some s =>
          .error (s!"gemini: {place} part functionResponse: scheduling {codec.quote s} is not " ++
            "in the vocabulary (SILENT/WHEN_IDLE/INTERRUPT; SCHEDULING_UNSPECIFIED and unknown " ++
            "values are refused)")
        | none => parts.zipIdx.forM fun p =>
          validateGeminiFuncRespPart codec s!"{place} part functionResponse parts[{p.2}]" p.1

/-- `validateGeminiPartRaw`: the arm of a part. -/
def validateGeminiPartRaw (place : String) (raw : Json) : Except String String :=
  match decodeMap raw with
  | none => .error s!"gemini: {place} part: json: cannot unmarshal"
  | some m =>
    match armMembers m with
    | [arm] =>
      if (m.lookup "thought").isSome ∧ arm ≠ "text" then
        .error s!"gemini: {place} part: thought is only legal on a text arm"
      else
        match if mediaArms.contains arm then none else smuggled geminiMediaAncillaryMembers m with
        | some modifier =>
          .error (s!"gemini: {place} part: {modifier} is only legal on media arms " ++
            "(inlineData/fileData)")
        | none => do
          if arm = "functionResponse" then
            validateGeminiFunctionResponse codec place ((m.lookup arm).getD .null)
          return arm
    | arms => .error s!"gemini: {place} part has {arms.length} arm members, want exactly one"

end grammar

/-! ## Wire structs -/

/-- `geminiFuncCall`. -/
structure FuncCall where
  name : String
  args : Option Json
  id : String

/-- `geminiFuncRespBlob` and `geminiFuncRespFile`, which name their payload differently. -/
structure FuncRespMedia where
  mimeType : String := ""
  payload : String := ""
  displayName : String := ""

def payloadName (arm : String) : String := if arm = "inlineData" then "data" else "fileUri"

/-- `geminiFuncRespPart`. -/
structure FuncRespPart where
  inlineData : Option FuncRespMedia := none
  fileData : Option FuncRespMedia := none

/-- `geminiFuncResp`. -/
structure FuncResp where
  name : String
  response : Option Json
  id : String
  willContinue : Option Bool
  scheduling : Option String
  parts : List FuncRespPart

/-- `geminiWirePart`: the typed decode and the raw element. -/
structure WirePart where
  text : Option String
  thought : Bool
  thoughtSignature : String
  functionCall : Option FuncCall
  functionResponse : Option FuncResp
  partMetadata : Option Json
  raw : Entries

def funcCallNames : List String := ["name", "args", "id"]

def partNames : List String :=
  ["text", "thought", "thoughtSignature", "functionCall", "functionResponse", "partMetadata"]

section decode

variable (codec : WireCodec)

/-- A pointer to a struct.  The grammar leaves at most one member for it. -/
def decodePtr {α : Type} (decode : Entries → Except String α) (values : List Json) :
    Except String (Option α) :=
  values.foldlM (fun _ v =>
    match v with
    | .null => .ok none
    | .obj members => (decode members).map some
    | _ => .error "json: cannot unmarshal into Go value of a struct type") none

variable (members : Entries)

def decodeFuncCall : Except String FuncCall := do
  let field := bound codec funcCallNames members
  let name ← Format.decodeString "" (field "name")
  let id ← Format.decodeString "" (field "id")
  return { name, args := rawMessage (field "args"), id }

/-- A pointer to the struct of an arm; a second object is decoded over the first. -/
def decodeFuncRespMedia (arm : String) (old : Option FuncRespMedia) (values : List Json) :
    Except String (Option FuncRespMedia) :=
  values.foldlM (fun old v =>
    match v with
    | .null => .ok none
    | .obj members => do
      let x := old.getD {}
      let field := bound codec (requiredMembers arm ++ ["displayName"]) members
      let mimeType ← Format.decodeString x.mimeType (field "mimeType")
      let payload ← Format.decodeString x.payload (field (payloadName arm))
      let displayName ← Format.decodeString x.displayName (field "displayName")
      return some { mimeType, payload, displayName }
    | _ => .error "json: cannot unmarshal into Go value of a struct type") old

/-- The typed decode of a part of a response, which an arm in another case has only. -/
def decodeFuncRespPart (old : FuncRespPart) : Json → Except String FuncRespPart
  | .null => .ok old
  | .obj members => do
    let field := bound codec mediaArms members
    let inlineData ← decodeFuncRespMedia codec "inlineData" old.inlineData (field "inlineData")
    let fileData ← decodeFuncRespMedia codec "fileData" old.fileData (field "fileData")
    return { inlineData, fileData }
  | _ => .error "json: cannot unmarshal into Go value of a struct type"

def decodeFuncResp : Except String FuncResp := do
  let field := bound codec geminiFunctionResponseMembers members
  let name ← Format.decodeString "" (field "name")
  let id ← Format.decodeString "" (field "id")
  let willContinue ← decodeBoolPtr (field "willContinue")
  let scheduling ← decodeStringPtr (field "scheduling")
  let parts ← decodeSlice {} (decodeFuncRespPart codec) (field "parts")
  return { name, response := rawMessage (field "response"), id, willContinue, scheduling, parts }

/-- `geminiPart`. -/
def decodePart : Except String WirePart := do
  let field := bound codec partNames members
  let text ← decodeStringPtr (field "text")
  let thought ← decodeBool (field "thought")
  let thoughtSignature ← Format.decodeString "" (field "thoughtSignature")
  let functionCall ← decodePtr (decodeFuncCall codec) (field "functionCall")
  let functionResponse ← decodePtr (decodeFuncResp codec) (field "functionResponse")
  return { text, thought, thoughtSignature, functionCall, functionResponse
           partMetadata := rawMessage (field "partMetadata"), raw := members }

/-- The entries of an element the grammar accepted. -/
def entriesOf : Json → Entries
  | .obj members => members
  | _ => []

structure GeminiContent where
  role : String
  parts : List WirePart

def contentNames : List String := ["role", "parts"]

def decodeContentPart (raw : Json) : Except String WirePart := do
  let _ ← validateGeminiPartRaw codec "content" raw
  decodePart codec (entriesOf raw)

/-- The role and the raw parts of a content or of the system instruction; null has
neither. -/
def decodeRoleParts : Json → Except String (String × List Json)
  | .null => .ok ("", [])
  | .obj members => do
    let role ← Format.decodeString "" (bound codec contentNames members "role")
    let parts ← decodeRawSlice (bound codec contentNames members "parts")
    return (role, parts)
  | _ => .error "json: cannot unmarshal into Go value of a struct type"

/-- `geminiContent.UnmarshalJSON`; it overwrites what stood in its place. -/
def decodeContent (v : Json) : Except String GeminiContent := do
  let raw ← decodeRoleParts codec v
  return { role := raw.1, parts := ← raw.2.mapM (decodeContentPart codec) }

def decodeSystemPart (raw : Json) : Except String WirePart := do
  let arm ← validateGeminiPartRaw codec "system" raw
  if arm ≠ "text" then
    .error (s!"gemini: system instruction parts must be text only " ++
      s!"(part arm {codec.quote arm})")
  else
    let p ← decodePart codec (entriesOf raw)
    if p.thought ∨ p.thoughtSignature ≠ "" then
      .error "gemini: system instruction parts must be plain text (no thought or signature)"
    else return p

/-- `geminiSystemInstruction.UnmarshalJSON` appends to the parts that are there; its
role is not used again. -/
def decodeSystemInstruction (values : List Json) : Except String (Option (List WirePart)) :=
  values.foldlM (fun old v =>
    match v with
    | .null => .ok none
    | v => do
      let raw ← decodeRoleParts codec v
      return some (old.getD [] ++ (← raw.2.mapM (decodeSystemPart codec)))) none

/-- `geminiFuncDecl`. -/
structure FuncDecl where
  name : String := ""
  description : String := ""
  parameters : Option Json := none

def funcDeclNames : List String := ["name", "description", "parameters"]

def decodeFuncDecl (old : FuncDecl) : Json → Except String FuncDecl
  | .null => .ok old
  | .obj members => do
    let field := bound codec funcDeclNames members
    let name ← Format.decodeString old.name (field "name")
    let description ← Format.decodeString old.description (field "description")
    return { name, description, parameters := (rawMessage (field "parameters")).or old.parameters }
  | _ => .error "json: cannot unmarshal into Go value of type gemini.geminiFuncDecl"

def toolNames : List String := ["functionDeclarations"]

/-- `geminiTool`: its declarations. -/
def decodeTool (old : Slice FuncDecl) : Json → Except String (Slice FuncDecl)
  | .null => .ok old
  | .obj members =>
    (bound codec toolNames members "functionDeclarations").foldlM
      (Slice.decode {} (decodeFuncDecl codec)) old
  | _ => .error "json: cannot unmarshal into Go value of type gemini.geminiTool"

/-- `geminiGenerationConfig`. -/
structure GenerationConfig where
  maxOutputTokens : Option Int := none
  temperature : Option UInt64 := none
  topP : Option UInt64 := none
  stopSequences : Slice String := {}

/-- A pointer to a number, decoded over the old one. -/
def decodeNumberOver {α : Type} (parse : String → Except String α) (old : Option α)
    (values : List Json) : Except String (Option α) :=
  if values.isEmpty then .ok old else decodeNumber parse values

def decodeGenerationConfig (old : GenerationConfig) (members : Entries) :
    Except String GenerationConfig := do
  let field := bound codec canonicalGenerationMembers members
  let maxOutputTokens ← decodeNumberOver codec.parseInt old.maxOutputTokens
    (field "maxOutputTokens")
  let temperature ← decodeNumberOver codec.parseFloat old.temperature (field "temperature")
  let topP ← decodeNumberOver codec.parseFloat old.topP (field "topP")
  let stopSequences ← (field "stopSequences").foldlM (Slice.decode "" decodeElemString)
    old.stopSequences
  return { maxOutputTokens, temperature, topP, stopSequences }

def decodeGenerationConfigPtr (values : List Json) : Except String (Option GenerationConfig) :=
  values.foldlM (fun old v =>
    match v with
    | .null => .ok none
    | .obj members => (decodeGenerationConfig codec (old.getD {}) members).map some
    | _ => .error "json: cannot unmarshal into Go value of a struct type") none

structure GeminiRequest where
  systemInstruction : Option (List WirePart) := none
  contents : List GeminiContent := []
  tools : List (Slice FuncDecl) := []
  generationConfig : Option GenerationConfig := none
  safetySettings : List Json := []

def requestNames : List String :=
  ["systemInstruction", "contents", "tools", "generationConfig", "safetySettings"]

def decodeAnyElem (_ v : Json) : Except String Json :=
  if codec.decodesAny v then .ok v else .error "json: cannot unmarshal number into Go value"

/-- `json.Unmarshal` into a `geminiRequest`. -/
def decodeRequest : Json → Except String GeminiRequest
  | .null => .ok {}
  | .obj members => do
    let field := bound codec requestNames members
    let systemInstruction ← decodeSystemInstruction codec (field "systemInstruction")
    let contents ← decodeSlice ⟨"", []⟩ (fun _ => decodeContent codec) (field "contents")
    let tools ← decodeSlice {} (decodeTool codec) (field "tools")
    let generationConfig ← decodeGenerationConfigPtr codec (field "generationConfig")
    let safetySettings ← decodeSlice Json.null (decodeAnyElem codec) (field "safetySettings")
    return { systemInstruction, contents, tools, generationConfig, safetySettings }
  | _ => .error "json: cannot unmarshal into Go value of type gemini.geminiRequest"

end decode

/-! ## Synthesised ids -/

/-- What is remembered of the calls: the last id of a name, and how often an id
was derived from a hash. -/
structure Synthesized where
  callIDs : String → Option String := fun _ => none
  syntheticCounts : String → Nat := fun _ => 0

/-- `fmt` with the verb `%x`. -/
def hex (bytes : List UInt8) : String :=
  String.ofList (bytes.flatMap fun b =>
    [Nat.digitChar (b.toNat / 16), Nat.digitChar (b.toNat % 16)])

section project

variable (codec : GeminiCodec)

def syntheticBase (kind name payload : String) : String :=
  let sum := codec.sha256 ("torana/gemini/" ++ kind ++ "\x00" ++ name ++ "\x00" ++ payload)
  "torana_gemini_" ++ hex (sum.toList.take 16)

def nextSyntheticGeminiID (kind name payload : String) (s : Synthesized) :
    String × Synthesized :=
  let base := syntheticBase codec kind name payload
  let count := s.syntheticCounts base + 1
  (base ++ "_" ++ toString count,
    { s with syntheticCounts := Function.update s.syntheticCounts base count })

variable (content part : Nat)

/-- The text of a raw member; an absent one has none. -/
def spelled (raw : Option Json) : String :=
  raw.elim "" (codec.spelling content part)

def functionCallID (fc : FuncCall) (s : Synthesized) :
    String × Synthesized :=
  if fc.id ≠ "" then (fc.id, s)
  else nextSyntheticGeminiID codec "call" fc.name (spelled codec content part fc.args) s

/-- The id of a call, remembered for the responses of its name. -/
def callID (fc : FuncCall) (s : Synthesized) : String × Synthesized :=
  let id := functionCallID codec content part fc s
  (id.1, { id.2 with callIDs := Function.update id.2.callIDs fc.name (some id.1) })

def responseID (fr : FuncResp) (s : Synthesized) : String × Synthesized :=
  if fr.id ≠ "" then (fr.id, s)
  else
    match s.callIDs fr.name with
    | some id => (id, s)
    | none => nextSyntheticGeminiID codec "orphan-response" fr.name
        (spelled codec content part fr.response) s

/-! ## Projecting parts -/

def partMetadata (raw : Option Json) : Except String OptionalJSONObject :=
  Attempt.context "gemini: partMetadata" (parseOptionalJSONObject raw)

/-- The wrapper object of an arm, as its struct writes it. -/
def wrapperMembers (arm : String) (x : FuncRespMedia) : Members :=
  structMembers [(arm, some (structJson
    [("mimeType", some (.str x.mimeType)), (payloadName arm, some (.str x.payload)),
      ("displayName", nonEmptyString x.displayName)]))]

/-- The checked payload of a wrapper object. -/
def wrapperPayload (wrapper : Members) : Except String RequiredJSONObject :=
  match validateFuncRespPartWrapper codec.toCodec wrapper with
  | .error err => .error s!"gemini: marshal: {err}"
  | .ok _ => .ok ⟨codec.text wrapper, wrapper⟩

def geminiFuncRespPartPayload (p : FuncRespPart) : Except String RequiredJSONObject :=
  match p.inlineData, p.fileData with
  | some x, none => wrapperPayload codec (wrapperMembers "inlineData" x)
  | none, some x => wrapperPayload codec (wrapperMembers "fileData" x)
  | _, _ => .error "gemini: FunctionResponsePart must have exactly one arm"

def geminiResponseIsError : Option Json → Bool
  | some (.obj members) => (members.toAList.lookup "error").isSome
  | _ => false

/-- `geminiToolResultBlock`: the text of the response is the first element. -/
def geminiToolResultBlock (fr : FuncResp) (id : String) :
    Except String ToolResultBlock := do
  let payloads ← fr.parts.mapM (geminiFuncRespPartPayload codec)
  return { toolCallID := id
           toolName := fr.name
           isError := if geminiResponseIsError fr.response then some true else none
           content := { text := spelled codec content part fr.response } ::
             payloads.map fun payload => { unknown := some { kind := "part", payload } }
           willContinue := fr.willContinue
           scheduling := fr.scheduling }

def stripGeminiPartFacts (raw : Entries) : RequiredJSONObject :=
  let payload := withoutMembers geminiCanonicalPartMembers raw.toAList
  ⟨codec.text payload, payload⟩

def WirePart.isTool (p : WirePart) : Bool := p.functionCall.isSome || p.functionResponse.isSome

def WirePart.hasText (p : WirePart) : Bool := p.text.any fun text => text ≠ ""

/-- The shape of a trailing signature: an explicit empty text, and a signature. -/
def WirePart.isTrailing (p : WirePart) : Bool :=
  p.thoughtSignature ≠ "" && !p.thought && p.text == some ""

variable (parts : List WirePart)

/-- What the first pass over the parts finds. -/
def hasTextOrThinking : Bool := parts.any fun p => !p.isTool && p.hasText

/-- The rejections of the first pass. -/
def validateParts : Except String Unit :=
  if hasTextOrThinking parts ∧ parts.any WirePart.isTool then
    .error ("gemini: mixed text/thinking and tool-call parts in one content are not " ++
      "representable")
  else if 1 < parts.countP (fun p => !p.isTool && p.isTrailing) then
    .error "gemini: duplicate standalone signature"
  else .ok ()

/-- A content being projected. -/
structure Projection where
  ids : Synthesized
  blocks : List Block := []
  seenCovered : Bool := false

/-- The block that a part without a tool arm becomes. -/
def plainBlock (seenCovered : Bool) (p : WirePart × Nat) :
    Except String Block :=
  let part := p.1
  match part.text with
  | some text => do
    if part.thought then
      let metadata ← partMetadata part.partMetadata
      return { thinking := some { text, signature := part.thoughtSignature
                                  partMetadataJson := metadata } }
    else if part.isTrailing then
      if !seenCovered then
        if !hasTextOrThinking parts then
          .error "gemini: standalone signature on a tool-call-only turn"
        else .error "gemini: trailing signature without preceding text/thinking content"
      else if p.2 + 1 ≠ parts.length then
        .error "gemini: standalone signature is not the final part"
      else
        let metadata ← partMetadata part.partMetadata
        return { trailingSignature := some { signature := part.thoughtSignature
                                             partMetadataJson := metadata } }
    else
      let metadata ← partMetadata part.partMetadata
      return { text := some { text, signature := part.thoughtSignature
                              partMetadataJson := metadata } }
  | none => do
    if part.thoughtSignature ≠ "" ∧ (part.raw.toAList.lookup "text").isSome then
      .error "gemini: standalone signature part must carry explicit empty text"
    else
      let metadata ← partMetadata part.partMetadata
      return { unknown := some { kind := "part", payload := stripGeminiPartFacts codec part.raw
                                 partMetadataJson := metadata
                                 signature := part.thoughtSignature } }

/-- One part of a content. -/
def projectPart (parts : List WirePart) (s : Projection) (p : WirePart × Nat) :
    Except String Projection :=
  match p.1.functionResponse, p.1.functionCall with
  | some fr, _ => do
    let id := responseID codec content p.2 fr s.ids
    let tr ← geminiToolResultBlock codec content p.2 fr id.1
    let metadata ← partMetadata p.1.partMetadata
    let block : Block := { toolResult := some { tr with signature := p.1.thoughtSignature
                                                        partMetadataJson := metadata } }
    return { s with ids := id.2, blocks := s.blocks ++ [block] }
  | none, some fc => do
    let id := callID codec content p.2 fc s.ids
    let args ← Attempt.context s!"tool call {codec.quote fc.name} args"
      (parseRequiredOrEmpty codec.toWireCodec fc.args)
    let metadata ← partMetadata p.1.partMetadata
    let block : Block := { toolUse := some { id := id.1, name := fc.name, arguments := args
                                             signature := p.1.thoughtSignature
                                             partMetadataJson := metadata } }
    return { s with ids := id.2, blocks := s.blocks ++ [block] }
  | none, none => do
    let block ← plainBlock codec parts s.seenCovered p
    return { s with blocks := s.blocks ++ [block]
                    seenCovered := s.seenCovered || p.1.hasText }

def mapRoleG (role : String) : Role :=
  if role = "user" then roleUser else if role = "model" then roleAssistant else role

def geminiContentToMessage (ids : Synthesized) (content : GeminiContent × Nat) :
    Except String (Message × Synthesized) := do
  validateParts content.1.parts
  let s ← content.1.parts.zipIdx.foldlM (projectPart codec content.2 content.1.parts)
    { ids }
  return ({ role := mapRoleG content.1.role, blocks := s.blocks }, s.ids)

/-- The messages of the contents; one without blocks is no message. -/
def projectContent (s : List Message × Synthesized) (content : GeminiContent × Nat) :
    Except String (List Message × Synthesized) := do
  let message ← geminiContentToMessage codec s.2 content
  return (if message.1.blocks.isEmpty then s.1 else s.1 ++ [message.1], message.2)

def contentMessages (contents : List GeminiContent) : Except String (List Message) :=
  (contents.zipIdx.foldlM (projectContent codec) ([], {})).map Prod.fst

/-- One part of the system instruction. -/
def systemBlock (p : WirePart) : Except String Block := do
  let metadata ← partMetadata p.partMetadata
  return { text := some { text := p.text.getD "", partMetadataJson := metadata } }

def systemMessage (parts : Option (List WirePart)) : Except String (List Message) := do
  let blocks ← (parts.getD []).mapM systemBlock
  return if blocks.isEmpty then [] else [{ role := roleSystem, blocks }]

def unmarshalTool (decl : FuncDecl) : Except String ToolDef := do
  let params ← Attempt.context s!"tool {codec.quote decl.name} parameters"
    (parseRequiredOrEmpty codec.toWireCodec decl.parameters)
  return { name := decl.name, description := decl.description, parameters := params }

/-! ## The request -/

/-- `stripGenerationCanonicalMembers`: a config of canonical members only is removed,
an empty one stays. -/
def stripGenerationCanonicalMembers (inner : OptionalJSONObject) :
    Except String OptionalJSONObject :=
  match inner.bind (AList.lookup "generationConfig") with
  | none => .ok inner
  | some raw =>
    match parseRequiredJSONObject raw with
    | .error err =>
      .error s!"gemini code assist: generationConfig must be a strict JSON object: {err}"
    | .ok before =>
      let after := withoutMembers canonicalGenerationMembers before
      if after.entries.isEmpty ∧ ¬ before.entries.isEmpty then
        .ok (inner.deleteMember "generationConfig")
      else .ok (inner.setMember "generationConfig" after.json)

variable (body : Json)

def innerExtensions : Except String OptionalJSONObject := do
  stripGenerationCanonicalMembers (← parseOptionalJSONObjectExcluding body innerCanonical)

/-- The model of an envelope: a string that is not empty. -/
def envelopeModel (env : OptionalJSONObject) : String :=
  match env.bind (AList.lookup "model") with
  | some (.str model) => if model = "" then "gemini" else model
  | _ => "gemini"

/-- The extensions of a Code Assist body: its extras, with those of the inner
request in their place. -/
def envelopeExtensions (body inner : Json) : Except String (String × OptionalJSONObject) :=
  Attempt.context "gemini code assist extensions" do
    let env ← parseOptionalJSONObjectExcluding body [envelopeRequestMember]
    let extra ← innerExtensions inner
    return (envelopeModel env, (env.deleteMember "model").setMember envelopeRequestMember
      (Members.json (extra.getD ∅)))

/-- The inner request of a Code Assist body. -/
def wrappedRequest : Option Json :=
  match (decodeMap body).bind (AList.lookup envelopeRequestMember) with
  | some (.obj members) => some (.obj members)
  | _ => none

def validateMaxOutputTokens (n : Option Int) : Except String Unit :=
  match n.filter fun n => n < 1 ∨ 2147483647 < n with
  | some n => .error s!"gemini: maxOutputTokens {n} is outside 1..2147483647"
  | none => .ok ()

def safetySettingsOf (settings : List Json) : Except String OptionalJSONArray :=
  if settings.isEmpty then .ok none
  else (Attempt.context "gemini safety settings" (codec.recode settings)).map some

/-- The model and the extensions, and whether the body is an envelope. -/
def topology : Except String (Bool × String × OptionalJSONObject) :=
  match wrappedRequest body with
  | some inner => (envelopeExtensions body inner).map fun env => (true, env)
  | none => (Attempt.context "gemini provider extensions" (innerExtensions body)).map fun ext =>
      (false, "gemini", normalizeExtensionObject ext)

def unmarshalBody : Except String ChatRequest :=
  match decodeMap body with
  | none => .error "gemini: unmarshal request: json: cannot unmarshal"
  | some _ => do
    let req ← Attempt.context "gemini: unmarshal inner request"
      (decodeRequest codec.toWireCodec ((wrappedRequest body).getD body))
    let config := req.generationConfig.getD {}
    validateMaxOutputTokens config.maxOutputTokens
    let safetySettings ← safetySettingsOf codec req.safetySettings
    let (codeAssist, model, extensions) ← topology body
    let system ← systemMessage req.systemInstruction
    let messages ← contentMessages codec req.contents
    let tools ← (req.tools.flatMap Slice.values).mapM (unmarshalTool codec)
    return { model, messages := system ++ messages, tools, maxTokens := config.maxOutputTokens
             temperature := config.temperature, topP := config.topP
             stopSequences := config.stopSequences.values, safetySettings, codeAssist
             providerExtensions := extensions }

def unmarshal : Except String ChatRequest := do
  extractOutputFormat codec.toCodec .gemini (← unmarshalBody codec body)

end project

/-! ## The block of a part -/

open Attempt

variable {codec : GeminiCodec} {i : Nat} {p : WirePart × Nat}
variable {b : Block} {parts : List WirePart}

/-- The block that a part is projected to. -/
def Projects (codec : GeminiCodec) (i : Nat) (p : WirePart × Nat) (metadata : OptionalJSONObject)
    (b : Block) : Prop :=
  match p.1.functionResponse, p.1.functionCall, p.1.text with
  | some fr, _, _ => ∃ id tr, (fr.id ≠ "" → id = fr.id) ∧
      geminiToolResultBlock codec i p.2 fr id = .ok tr ∧
      b = { toolResult := some { tr with signature := p.1.thoughtSignature
                                         partMetadataJson := metadata } }
  | none, some fc, _ => ∃ id args, (fc.id ≠ "" → id = fc.id) ∧
      parseRequiredOrEmpty codec.toWireCodec fc.args = .ok args ∧
      b = { toolUse := some { id, name := fc.name, arguments := args
                              signature := p.1.thoughtSignature, partMetadataJson := metadata } }
  | none, none, some text =>
    b = if p.1.thought then
          { thinking := some { text, signature := p.1.thoughtSignature
                               partMetadataJson := metadata } }
        else if p.1.isTrailing then
          { trailingSignature := some { signature := p.1.thoughtSignature
                                        partMetadataJson := metadata } }
        else
          { text := some { text, signature := p.1.thoughtSignature, partMetadataJson := metadata } }
  | none, none, none =>
    b = { unknown := some { kind := "part", payload := stripGeminiPartFacts codec p.1.raw
                            partMetadataJson := metadata, signature := p.1.thoughtSignature } }

lemma plainBlock_spec {seenCovered : Bool} (hresponse : p.1.functionResponse = none)
    (hcall : p.1.functionCall = none) (h : plainBlock codec parts seenCovered p = .ok b) :
    ∃ metadata, partMetadata p.1.partMetadata = .ok metadata ∧ Projects codec i p metadata b := by
  simp only [plainBlock] at h
  unfold Projects
  rw [hresponse, hcall]
  cases htext : p.1.text with
  | none =>
    rw [htext] at h
    rcases ite_eq_iff.mp h with ⟨-, h⟩ | ⟨-, h⟩
    · cases h
    obtain ⟨metadata, hmetadata, h⟩ := bind_eq_ok.mp h
    cases h
    exact ⟨metadata, hmetadata, rfl⟩
  | some text =>
  rw [htext] at h
  rcases ite_eq_iff.mp h with ⟨hthought, h⟩ | ⟨hthought, h⟩
  · obtain ⟨metadata, hmetadata, h⟩ := bind_eq_ok.mp h
    cases h
    exact ⟨metadata, hmetadata, (if_pos hthought).symm⟩
  rcases ite_eq_iff.mp h with ⟨htrailing, h⟩ | ⟨htrailing, h⟩
  · rcases ite_eq_iff.mp h with ⟨-, h⟩ | ⟨-, h⟩
    · rcases ite_eq_iff.mp h with ⟨-, h⟩ | ⟨-, h⟩ <;> cases h
    rcases ite_eq_iff.mp h with ⟨-, h⟩ | ⟨-, h⟩
    · cases h
    obtain ⟨metadata, hmetadata, h⟩ := bind_eq_ok.mp h
    cases h
    exact ⟨metadata, hmetadata, ((if_neg hthought).trans (if_pos htrailing)).symm⟩
  obtain ⟨metadata, hmetadata, h⟩ := bind_eq_ok.mp h
  cases h
  exact ⟨metadata, hmetadata, ((if_neg hthought).trans (if_neg htrailing)).symm⟩

variable {fr : FuncResp} {s : Synthesized}

variable {fc : FuncCall}

lemma callID_given {j : Nat} (h : fc.id ≠ "") : (callID codec i j fc s).1 = fc.id := by
  show (functionCallID codec i j fc s).1 = fc.id
  rw [functionCallID, if_pos h]

/-- **One part** adds its block. -/
theorem projectPart_spec {q q' : Projection} (h : projectPart codec i parts q p = .ok q') :
    ∃ metadata b, partMetadata p.1.partMetadata = .ok metadata ∧ q'.blocks = q.blocks ++ [b] ∧
      Projects codec i p metadata b := by
  unfold projectPart at h
  split at h
  next fr hresponse =>
    obtain ⟨tr, htr, metadata, hmetadata, h⟩ := bind₂_eq_ok.mp h
    cases h
    refine ⟨metadata, _, hmetadata, rfl, ?_⟩
    unfold Projects
    rw [hresponse]
    exact ⟨_, tr, fun h => by rw [responseID, if_pos h], htr, rfl⟩
  next fc hresponse hcall =>
    obtain ⟨args, hargs, metadata, hmetadata, h⟩ := bind₂_eq_ok.mp h
    cases h
    refine ⟨metadata, _, hmetadata, rfl, ?_⟩
    unfold Projects
    rw [hresponse, hcall]
    exact ⟨_, args, callID_given, context_eq_ok.mp hargs, rfl⟩
  next hresponse hcall =>
    obtain ⟨block, hblock, h⟩ := bind_eq_ok.mp h
    cases h
    obtain ⟨metadata, hmetadata, hprojects⟩ := plainBlock_spec hresponse hcall hblock
    exact ⟨metadata, block, hmetadata, rfl, hprojects⟩

end ToranaEdge.Format.Gemini
