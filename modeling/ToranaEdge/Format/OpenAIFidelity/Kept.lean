import ToranaEdge.Format.Fidelity.Struct
import ToranaEdge.Format.OpenAIUnmarshal

/-! # What a Chat Completions body keeps on its way through the engine

`Survives` says that no member of a message, of a content part, of a tool call
or of a tool definition is lost between a body and what is marshalled from its
canonical form.  A string content may become an array of one text part, and the
reverse.

`Plain` is the exact condition on the body. -/

namespace ToranaEdge.Format.OpenAI

open Engine
open Anthropic (SameJson ObjectKept ArrayKept FlatKept OnlyNames Omitted)

/-! ## What it is to survive -/

/-- A part that says no more than its text. -/
def IsTextPart (s : String) (part : Json) : Prop :=
  ∃ members : Entries, part = .obj members ∧ members.dlookup "type" = some (.str "text") ∧
    members.dlookup "text" = some (.str s) ∧ OnlyNames ["type", "text"] members

section survive

variable (codec : WireCodec)

/-- The content of a message. -/
def ContentKept (v w : Json) : Prop :=
  ArrayKept codec (FlatKept codec) v w ∨
    (∃ s part, v = .str s ∧ w = .arr [part] ∧ IsTextPart s part) ∨
    ∃ s part, v = .arr [part] ∧ w = .str s ∧ IsTextPart s part

/-- The members of a tool call or of a tool definition; its function is a level of its
own. -/
def functionRel (key : String) (v w : Json) : Prop :=
  SameJson codec v w ∨ key = "function" ∧ FlatKept codec v w

def FunctionKept : Json → Json → Prop := ObjectKept (functionRel codec)

def messageRel (key : String) : Json → Json → Prop :=
  if key = "content" then ContentKept codec
  else if key = "tool_calls" then ArrayKept codec (FunctionKept codec)
  else SameJson codec

def MessageKept : Json → Json → Prop := ObjectKept (messageRel codec)

/-- Nothing of the messages and of the tools is lost in what is written. -/
structure Survives (body : Entries) (out : Members) : Prop where
  messages : ∀ elems, body.dlookup "messages" = some (.arr elems) →
    List.Forall₂ (MessageKept codec) elems (elemsOf (out.lookup "messages"))
  tools : ∀ elems, body.dlookup "tools" = some (.arr elems) →
    List.Forall₂ (FunctionKept codec) elems (elemsOf (out.lookup "tools"))

end survive

/-! ## The bodies that survive -/

/-- A function of a call: its arguments are a text, and not the empty one. -/
def CallFunctionPlain (fn : Entries) : Prop :=
  OnlyNames toolFuncNames fn ∧ (∀ v ∈ fn.dlookup "name", v ≠ .null) ∧
    ∀ v ∈ fn.dlookup "arguments", ¬ Omitted v

def CallPlain (call : Json) : Prop :=
  ∃ members, call = .obj members ∧ OnlyNames toolCallNames members ∧
    (∀ v ∈ members.dlookup "id", v ≠ .null) ∧
    (∀ v ∈ members.dlookup "type", v = .str "function") ∧
    ∀ v ∈ members.dlookup "function", ∃ fn, v = .obj fn ∧ CallFunctionPlain fn

def ToolFunctionPlain (fn : Entries) : Prop :=
  OnlyNames toolFuncDefNames fn ∧ (∀ v ∈ fn.dlookup "name", v ≠ .null) ∧
    (∀ v ∈ fn.dlookup "description", ¬ Omitted v) ∧ ∀ v ∈ fn.dlookup "strict", v = .bool true

def ToolPlain (tool : Json) : Prop :=
  ∃ members, tool = .obj members ∧ OnlyNames toolDefNames members ∧
    (∀ v ∈ members.dlookup "type", v = .str "function") ∧
    ∀ v ∈ members.dlookup "function", ∃ fn, v = .obj fn ∧ ToolFunctionPlain fn

/-- The calls of a message. -/
def callsOf (message : Entries) : List Json := elemsOf (message.dlookup "tool_calls")

/-- An empty text of this message is written as null. -/
def WritesNull (message : Entries) : Prop :=
  message.dlookup "role" = some (.str roleAssistant) ∧ callsOf message ≠ []

section plain

variable (codec : WireCodec)

/-- A part that is read as text is written with the type `text` and its text alone.
Any other keeps its members, and its type must be read as it stands. -/
def PartPlain (part : Json) : Prop :=
  ∃ members type, part = .obj members ∧ partType codec part = .ok type ∧
    if type ∈ textKinds then OnlyNames ["type", "text"] members ∧ type = "text"
    else ∀ v ∈ members.dlookup "type", v = .str type

/-- The content of a message. -/
def ContentPlain (message : Entries) : Json → Prop
  | .null => WritesNull message
  | .str s => s = "" → ¬ WritesNull message
  | .arr [part] => PartPlain codec part ∧ (IsTextPart "" part → ¬ WritesNull message)
  | .arr parts => parts ≠ [] ∧ ∀ part ∈ parts, PartPlain codec part
  | _ => False

def MessagePlain (message : Entries) : Prop :=
  OnlyNames messageNames message ∧
    (∀ v ∈ message.dlookup "role", v ≠ .null) ∧
    (∀ v ∈ message.dlookup "content", ContentPlain codec message v) ∧
    (∀ v ∈ message.dlookup "reasoning_content", v ≠ .null) ∧
    (∀ v ∈ message.dlookup "tool_calls", message.dlookup "role" = some (.str roleAssistant) ∧
      ∃ calls, v = .arr calls ∧ calls ≠ [] ∧ ∀ call ∈ calls, CallPlain call) ∧
    -- only the message of a tool is written with an id and with a name
    (message.dlookup "role" = some (.str roleTool) → ∀ v ∈ message.dlookup "name", ¬ Omitted v) ∧
    (message.dlookup "role" ≠ some (.str roleTool) →
      "tool_call_id" ∉ message.keys ∧ "name" ∉ message.keys)

structure Plain (body : Entries) : Prop where
  messages : ∀ elems, body.dlookup "messages" = some (.arr elems) →
    ∀ m ∈ elems, ∃ message, m = .obj message ∧ MessagePlain codec message
  tools : ∀ elems, body.dlookup "tools" = some (.arr elems) → ∀ tool ∈ elems, ToolPlain tool

/-- `messages` and `tools` are read as if they were not spelled again in another case. -/
structure SpelledAlike (body : Entries) : Prop where
  messages : ∀ v ∈ body.dlookup "messages",
    decodeSlice {} (fun m v => decodeStruct (decodeChatMessage codec) m [v])
        (bound codec requestNames body "messages") =
      decodeSlice {} (fun m v => decodeStruct (decodeChatMessage codec) m [v]) [v]
  tools : ∀ v ∈ body.dlookup "tools",
    decodeSlice {} (fun t v => decodeStruct (decodeToolDef codec) t [v])
        (bound codec requestNames body "tools") =
      decodeSlice {} (fun t v => decodeStruct (decodeToolDef codec) t [v]) [v]

/-- The names a part is probed for differ in more than their case. -/
structure FoldLaws : Prop where
  type_ne_text : codec.foldName "type" ≠ codec.foldName "text"

end plain

end ToranaEdge.Format.OpenAI
