import Mathlib.Data.List.AList

/-! # The canonical request of the engine

`engine.ChatRequest` is the one shape every provider format is translated
into and marshalled from.  Its raw JSON fields are authorities: text that the
strict validator accepted, so member names are unique.

JSON text is modelled by its value.  Numbers keep their lexeme, the order of
an object's members carries no meaning, and the spelling of an object is kept
only where an adapter emits it as text (`RequiredJSONObject.text`).

The engine's block is a sum of pointers: any number of its arms can be set,
and `validateEngineRequest` is what refuses all but one. -/

namespace ToranaEdge

/-! ## JSON values -/

inductive Json where
  | null
  | bool (b : Bool)
  | num (lexeme : String)
  | str (s : String)
  | arr (elems : List Json)
  | obj (members : List (Sigma fun _ : String => Json))

/-- The members of an object, one per name: `map[string]json.RawMessage`. -/
abbrev Members : Type := AList (fun _ : String => Json)

def Members.json (m : Members) : Json := .obj m.entries

namespace Engine

/-- `OptionalJSONObject`: absent is not the empty object. -/
abbrev OptionalJSONObject : Type := Option Members

/-- `RequiredJSONObject`: its text and what the text decodes to.  The zero value
is the empty object. -/
structure RequiredJSONObject where
  text : String := "\x7b\x7d"
  members : Members := ∅

/-- `OptionalJSONArray`: absent is not the empty array. -/
abbrev OptionalJSONArray : Type := Option (List Json)

/-- `SetMember`; an absent object materializes. -/
def OptionalJSONObject.setMember (o : OptionalJSONObject) (key : String) (value : Json) :
    OptionalJSONObject :=
  some ((o.getD ∅).insert key value)

/-- `DeleteMember`; an absent object stays absent. -/
def OptionalJSONObject.deleteMember (o : OptionalJSONObject) (key : String) :
    OptionalJSONObject :=
  o.map (AList.erase key)

/-- `ParseOptionalJSONObject` of one value of a validated text; no value is the
absent object. -/
def parseOptionalJSONObject : Option Json → Except String OptionalJSONObject
  | none => .ok none
  | some (.obj members) => .ok (some members.toAList)
  | some _ => .error "raw JSON must be a JSON object"

/-- `ParseRequiredJSONObject` of one value of a validated text. -/
def parseRequiredJSONObject : Json → Except String Members
  | .obj members => .ok members.toAList
  | _ => .error "raw JSON must be a JSON object"

/-! ## Blocks -/

abbrev Role : Type := String

def roleSystem : Role := "system"
def roleUser : Role := "user"
def roleAssistant : Role := "assistant"
def roleTool : Role := "tool"

/-- `ToolInvocationKind` is an integer type with two named values. -/
inductive ToolInvocationKind where
  | function
  | freeform
  | other (code : Int) (h : code ≠ 0 ∧ code ≠ 1)
  deriving DecidableEq, Repr

structure TextBlock where
  text : String
  signature : String := ""
  partMetadataJson : OptionalJSONObject := none

structure ThinkingBlock where
  text : String
  signature : String := ""
  partMetadataJson : OptionalJSONObject := none

structure RedactedThinkingBlock where
  data : String

structure CacheBreakpointBlock where
  marker : RequiredJSONObject

structure UnknownBlock where
  kind : String
  payload : RequiredJSONObject
  partMetadataJson : OptionalJSONObject := none
  signature : String := ""

structure ToolUseBlock where
  id : String
  name : String
  arguments : RequiredJSONObject := {}
  /-- The input of a free-form call. -/
  inputText : Option String := none
  invocationKind : ToolInvocationKind := .function
  signature : String := ""
  partMetadataJson : OptionalJSONObject := none

/-- One element of a tool result; text is its zero arm. -/
structure ToolResultContentBlock where
  text : String := ""
  unknown : Option UnknownBlock := none
  cacheBreakpoint : Option CacheBreakpointBlock := none

structure ToolResultBlock where
  toolCallID : String
  toolName : String
  isError : Option Bool := none
  content : List ToolResultContentBlock
  partMetadataJson : OptionalJSONObject := none
  willContinue : Option Bool := none
  scheduling : Option String := none
  signature : String := ""
  invocationKind : ToolInvocationKind := .function

structure TrailingSignatureBlock where
  signature : String
  partMetadataJson : OptionalJSONObject := none

/-- A pointer sum: nothing here keeps two arms from being set. -/
structure Block where
  text : Option TextBlock := none
  thinking : Option ThinkingBlock := none
  redactedThinking : Option RedactedThinkingBlock := none
  toolUse : Option ToolUseBlock := none
  toolResult : Option ToolResultBlock := none
  cacheBreakpoint : Option CacheBreakpointBlock := none
  unknown : Option UnknownBlock := none
  trailingSignature : Option TrailingSignatureBlock := none

/-- The name of the first arm set, for error messages. -/
def firstArm (empty : String) (b : Block) : String :=
  if b.text.isSome then "text"
  else if b.thinking.isSome then "thinking"
  else if b.redactedThinking.isSome then "redacted_thinking"
  else if b.toolUse.isSome then "tool_use"
  else if b.toolResult.isSome then "tool_result"
  else if b.cacheBreakpoint.isSome then "cache_breakpoint"
  else if b.unknown.isSome then "unknown"
  else if b.trailingSignature.isSome then "trailing_signature"
  else empty

/-! ## The request -/

structure Message where
  role : Role
  blocks : List Block

structure ToolDef where
  name : String
  description : String := ""
  parameters : RequiredJSONObject := {}
  strict : Bool := false
  cacheControl : OptionalJSONObject := none
  invocationKind : ToolInvocationKind := .function
  /-- The input format of a free-form tool. -/
  inputFormat : RequiredJSONObject := {}
  namespacePath : List String := []

structure OutputFormat where
  /-- 0 text, 1 JSON object, 2 JSON schema. -/
  mode : Int32
  name : String := ""
  schema : OptionalJSONObject := none
  strict : Option Bool := none

inductive OpenAIVariant where
  | chat
  | responses
  deriving DecidableEq, Repr

structure ChatRequest where
  model : String := ""
  messages : List Message := []
  tools : List ToolDef := []
  stream : Bool := false
  maxTokens : Option Int := none
  /-- IEEE bit pattern. -/
  temperature : Option UInt64 := none
  /-- IEEE bit pattern. -/
  topP : Option UInt64 := none
  stopSequences : List String := []
  outputFormat : Option OutputFormat := none
  safetySettings : OptionalJSONArray := none
  providerExtensions : OptionalJSONObject := none
  toranaMeta : OptionalJSONObject := none
  /-- Host-only: the request arrived wrapped in a Code Assist envelope. -/
  codeAssist : Bool := false
  /-- Host-only: the OpenAI wire variant. -/
  openAIVariant : OpenAIVariant := .chat
  /-- Host-only: the first system message came from the instructions member. -/
  responsesInstructions : Bool := false
  /-- Host-only: the input array a Responses request arrived with. -/
  responsesInputLayout : OptionalJSONArray := none

/-- The token counts of a response, streamed or not. -/
structure StreamUsage where
  inputTokens : Int
  outputTokens : Int
  cacheReadTokens : Int
  cacheWriteTokens : Int
  deriving DecidableEq, Repr

/-! ## The engine's own validation -/

/-- A NaN or an infinity: all exponent bits are set. -/
def notFinite (bits : UInt64) : Bool := (bits >>> 52) &&& 0x7ff == 0x7ff

def blockArms (b : Block) : Nat :=
  b.text.isSome.toNat + b.thinking.isSome.toNat + b.redactedThinking.isSome.toNat +
    b.toolUse.isSome.toNat + b.toolResult.isSome.toNat + b.cacheBreakpoint.isSome.toNat +
    b.unknown.isSome.toNat + b.trailingSignature.isSome.toNat

def nestedArms (c : ToolResultContentBlock) : Nat :=
  (c.text != "").toNat + c.unknown.isSome.toNat + c.cacheBreakpoint.isSome.toNat

def validateNested : Nat → List ToolResultContentBlock → Except String Unit
  | _, [] => .ok ()
  | k, c :: rest =>
    if 1 < nestedArms c then
      .error s!"nested content element {k} has {nestedArms c} conflicting arms"
    else validateNested (k + 1) rest

def validateEngineBlock (b : Block) : Except String Unit :=
  if blockArms b = 0 then .error "block has zero arms"
  else if blockArms b ≠ 1 then .error s!"block has {blockArms b} arms, want exactly one"
  else
    match b.toolResult with
    | none => .ok ()
    | some r =>
      if r.content.isEmpty then .error "tool result has empty nested content"
      else validateNested 0 r.content

/-- Runs a check over a list and prefixes its error with the element's place. -/
def validateEach {α : Type} (what : String) (check : α → Except String Unit) :
    Nat → List α → Except String Unit
  | _, [] => .ok ()
  | i, a :: rest =>
    match check a with
    | .error err => .error s!"{what} {i}: {err}"
    | .ok () => validateEach what check (i + 1) rest

lemma of_validateEach {α : Type} {what : String} {check : α → Except String Unit} {i : Nat}
    {as : List α} (h : validateEach what check i as = .ok ()) : ∀ a ∈ as, check a = .ok () := by
  induction as generalizing i with
  | nil =>
    intro a ha
    cases ha
  | cons a as ih =>
  unfold validateEach at h
  split at h
  · cases h
  next hcheck =>
  rw [List.forall_mem_cons]
  exact ⟨hcheck, ih h⟩

def validateEngineMessage (m : Message) : Except String Unit :=
  validateEach "block" validateEngineBlock 0 m.blocks

def validateEngineTool (t : ToolDef) : Except String Unit :=
  if t.name = "" then .error "empty name" else .ok ()

/-- `math.MaxInt32`. -/
def maxInt32 : Int := 2147483647

def validateMaxTokens : Option Int → Except String Unit
  | none => .ok ()
  | some n =>
    if n < 1 ∨ maxInt32 < n then .error s!"max_tokens {n} is outside 1..{maxInt32}" else .ok ()

def validateFinite (what : String) : Option UInt64 → Except String Unit
  | none => .ok ()
  | some bits => if notFinite bits then .error s!"{what} is not finite" else .ok ()

/-- `ValidateEngineRequest`: what the protobuf conversion would discard. -/
def validateEngineRequest (c : ChatRequest) : Except String Unit := do
  validateMaxTokens c.maxTokens
  validateFinite "temperature" c.temperature
  validateFinite "top_p" c.topP
  validateEach "message" validateEngineMessage 0 c.messages
  validateEach "tool" validateEngineTool 0 c.tools

end Engine

end ToranaEdge
