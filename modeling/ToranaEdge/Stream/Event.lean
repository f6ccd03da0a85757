import ToranaEdge.Wire

/-! # Stream events of the plugin ABI

The messages a streamed response is made of, as the host hands them to a
stream plugin and takes them back.  Every message keeps the protobuf bytes
its schema does not know (`unknown`): the field-policy walk compares them.

A `StreamEvent` is a protobuf oneof, so its arm may be unset; so may the
block of a `ContentBlockStart`.  A decoded oneof arm that is a message is
never a nil pointer, and the model has no such state. -/

namespace ToranaEdge

/-- The tool call a `ContentBlockStart` opens. -/
structure ToolCallRef where
  id : String
  name : String
  signature : String := ""
  invocationKind : ToolInvocationKind := .function
  unknown : Bytes := []
  deriving DecidableEq, Repr

/-- A provider block: its kind passes through verbatim. -/
structure ProviderBlock where
  kind : String
  unknown : Bytes := []
  deriving DecidableEq, Repr

/-- The oneof `ContentBlockStart.block`.  `TextBlock` and `ThinkingBlock` have
no declared fields. -/
inductive ContentBlock where
  | text (unknown : Bytes)
  | thinking (unknown : Bytes)
  | toolCall (call : ToolCallRef)
  | provider (provider : ProviderBlock)
  deriving DecidableEq, Repr

structure ContentBlockStart where
  index : Int32
  block : Option ContentBlock
  unknown : Bytes := []
  deriving DecidableEq, Repr

structure ContentBlockStop where
  index : Int32
  unknown : Bytes := []
  deriving DecidableEq, Repr

/-- One fragment of a tool call: argument text, or free-form input. -/
structure ToolCallDelta where
  index : Int32
  argumentsDelta : String := ""
  inputTextDelta : Option String := none
  unknown : Bytes := []
  deriving DecidableEq, Repr

structure MessageStart where
  role : String
  id : String
  model : String
  unknown : Bytes := []
  deriving DecidableEq, Repr

structure MessageStop where
  finishReason : String
  unknown : Bytes := []
  deriving DecidableEq, Repr

structure Usage where
  inputTokens : Int32 := 0
  outputTokens : Int32 := 0
  cacheReadTokens : Int32 := 0
  cacheWriteTokens : Int32 := 0
  unknown : Bytes := []
  deriving DecidableEq, Repr

structure StreamError where
  code : Int32
  message : String
  unknown : Bytes := []
  deriving DecidableEq, Repr

/-- The oneof `StreamEvent.event`. -/
inductive EventArm where
  | textDelta (text : String)
  | thinkingDelta (text : String)
  | signatureDelta (token : String)
  | toolCallDelta (delta : ToolCallDelta)
  | contentBlockStart (start : ContentBlockStart)
  | contentBlockStop (stop : ContentBlockStop)
  | messageStart (start : MessageStart)
  | messageStop (stop : MessageStop)
  | usage (usage : Usage)
  | error (error : StreamError)
  deriving DecidableEq, Repr

structure StreamEvent where
  event : Option EventArm
  unknown : Bytes := []
  deriving DecidableEq, Repr

/-! ## Constructors for the events of a stream -/

namespace StreamEvent

def textDelta (text : String) : StreamEvent := { event := some (.textDelta text) }

def thinkingDelta (text : String) : StreamEvent := { event := some (.thinkingDelta text) }

def signatureDelta (token : String) : StreamEvent := { event := some (.signatureDelta token) }

variable (index : Int32)

def startText : StreamEvent :=
  { event := some (.contentBlockStart { index, block := some (.text []) }) }

def startThinking : StreamEvent :=
  { event := some (.contentBlockStart { index, block := some (.thinking []) }) }

def startTool (call : ToolCallRef) : StreamEvent :=
  { event := some (.contentBlockStart { index, block := some (.toolCall call) }) }

def stop : StreamEvent := { event := some (.contentBlockStop { index }) }

def toolDelta (argumentsDelta : String) : StreamEvent :=
  { event := some (.toolCallDelta { index, argumentsDelta }) }

end StreamEvent

end ToranaEdge
