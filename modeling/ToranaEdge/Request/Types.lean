import ToranaEdge.Wire

/-! # Requests of the plugin ABI

`ChatRequest` as the host hands it to a request plugin and takes it back:
ordered message bodies made of typed blocks, tool definitions and
parameters.  Every message record keeps the protobuf bytes its schema does
not know (`unknown`), because the host refuses them.

Strings are Lean strings and are read as UTF-8 where the host hashes them.
A double is its IEEE bit pattern, which is what the host compares. -/

namespace ToranaEdge

/-! ## Tool-result content -/

structure ToolResultTextBlock where
  text : String
  unknown : Bytes := []
  deriving DecidableEq, Repr

structure ToolResultUnknownBlock where
  kind : String
  payloadJson : Bytes
  unknown : Bytes := []
  deriving DecidableEq, Repr

structure ToolResultCacheBreakpoint where
  markerJson : Bytes
  unknown : Bytes := []
  deriving DecidableEq, Repr

inductive ToolResultContentKind where
  | text (block : ToolResultTextBlock)
  | unknown (block : ToolResultUnknownBlock)
  | cacheBreakpoint (block : ToolResultCacheBreakpoint)
  deriving DecidableEq, Repr

/-- One element of a tool result; the oneof may be unset. -/
structure ToolResultContentBlock where
  kind : Option ToolResultContentKind
  unknown : Bytes := []
  deriving DecidableEq, Repr

/-! ## Blocks and messages -/

structure RequestTextBlock where
  text : String
  signature : String := ""
  partMetadataJson : Bytes := []
  unknown : Bytes := []
  deriving DecidableEq, Repr

structure RequestThinkingBlock where
  text : String
  signature : String := ""
  partMetadataJson : Bytes := []
  unknown : Bytes := []
  deriving DecidableEq, Repr

structure RequestRedactedThinkingBlock where
  data : String
  unknown : Bytes := []
  deriving DecidableEq, Repr

structure RequestToolUseBlock where
  id : String
  name : String
  argumentsJson : Bytes := []
  signature : String := ""
  partMetadataJson : Bytes := []
  inputText : Option String := none
  invocationKind : ToolInvocationKind := .function
  unknown : Bytes := []
  deriving DecidableEq, Repr

structure RequestToolResultBlock where
  toolCallId : String
  toolName : String
  content : List ToolResultContentBlock := []
  partMetadataJson : Bytes := []
  willContinue : Option Bool := none
  scheduling : Option String := none
  signature : String := ""
  invocationKind : ToolInvocationKind := .function
  isError : Option Bool := none
  unknown : Bytes := []
  deriving DecidableEq, Repr

structure RequestCacheBreakpoint where
  markerJson : Bytes
  unknown : Bytes := []
  deriving DecidableEq, Repr

structure RequestUnknownBlock where
  kind : String
  payloadJson : Bytes := []
  partMetadataJson : Bytes := []
  signature : String := ""
  unknown : Bytes := []
  deriving DecidableEq, Repr

structure RequestTrailingSignatureBlock where
  signature : String
  partMetadataJson : Bytes := []
  unknown : Bytes := []
  deriving DecidableEq, Repr

/-- A refusal; the host reads none of its fields. -/
structure RequestRefusalBlock where
  body : Bytes
  unknown : Bytes := []
  deriving DecidableEq, Repr

inductive RequestBlockKind where
  | text (block : RequestTextBlock)
  | thinking (block : RequestThinkingBlock)
  | redactedThinking (block : RequestRedactedThinkingBlock)
  | toolUse (block : RequestToolUseBlock)
  | toolResult (block : RequestToolResultBlock)
  | cacheBreakpoint (block : RequestCacheBreakpoint)
  | unknown (block : RequestUnknownBlock)
  | trailingSignature (block : RequestTrailingSignatureBlock)
  | refusal (block : RequestRefusalBlock)
  deriving DecidableEq, Repr

/-- One block of a message body; the oneof may be unset. -/
structure RequestBlock where
  kind : Option RequestBlockKind
  unknown : Bytes := []
  deriving DecidableEq, Repr

structure Message where
  role : String
  blocks : List RequestBlock
  unknown : Bytes := []
  deriving DecidableEq, Repr

/-! ## The request -/

structure ToolDef where
  name : String
  description : String := ""
  parametersJson : Bytes := []
  strict : Bool := false
  cacheControlJson : Bytes := []
  invocationKind : ToolInvocationKind := .function
  inputFormatJson : Bytes := []
  namespacePath : List String := []
  unknown : Bytes := []
  deriving DecidableEq, Repr

structure OutputFormat where
  mode : Int32
  name : String := ""
  schemaJson : Bytes := []
  strict : Option Bool := none
  unknown : Bytes := []
  deriving DecidableEq, Repr

structure ChatRequest where
  model : String := ""
  messages : List Message := []
  tools : List ToolDef := []
  stream : Bool := false
  maxTokens : Option Int32 := none
  /-- IEEE bit pattern. -/
  temperature : Option UInt64 := none
  /-- IEEE bit pattern. -/
  topP : Option UInt64 := none
  stopSequences : List String := []
  providerExtensionsJson : Bytes := []
  safetySettingsJson : Bytes := []
  outputFormat : Option OutputFormat := none
  toranaMetaJson : Bytes := []
  unknown : Bytes := []
  deriving DecidableEq, Repr

/-! ## What the host takes from elsewhere -/

/-- A 32-byte digest. -/
abbrev Digest : Type := { d : Bytes // d.length = 32 }

/-- The zero value of `[32]byte`. -/
def zeroDigest : Digest := ⟨List.replicate 32 0, by simp⟩

/-- Functions the host calls but this repository does not contain: SHA-256, the
plugin SDK's fingerprints and section names, and protobuf's deterministic
marshalling.  Nothing is assumed of them here. -/
structure Externals where
  sha256 : Bytes → Digest
  /-- `sdk.RequestBlocksFingerprint`. -/
  requestBlocksFingerprint : Message → Except String String
  /-- `sdk.ToolResultContentFingerprint`. -/
  toolResultContentFingerprint : List ToolResultContentBlock → Except String Digest
  /-- `proto.MarshalOptions{Deterministic: true}.Marshal` of an output format. -/
  marshalOutputFormat : OutputFormat → Except String Bytes
  /-- `sdk.MessageWriteSection`. -/
  messageWriteSection : String → String

end ToranaEdge
