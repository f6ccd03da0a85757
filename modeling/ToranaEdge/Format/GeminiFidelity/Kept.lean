import ToranaEdge.Format.Fidelity.Struct
import ToranaEdge.Format.GeminiUnmarshal

/-! # What a Gemini body keeps on its way through the engine

`Survives` says that no member of a content, of a part or of a tool is lost
between a body and what is marshalled from its canonical form.  A call or a
response may be given an id, and the declarations of several tools are written
as those of one tool.

`Plain` is the exact condition on the body. -/

namespace ToranaEdge.Format.Gemini

open Engine
open Anthropic (SameJson ObjectKept ArrayKept FlatKept OnlyNames Omitted)

/-! ## What it is to survive -/

/-- The members of the request, bare or in an envelope. -/
def requestOf (body : Json) : Entries := entriesOf ((wrappedRequest body).getD body)

/-- The declarations of a tool. -/
def declarationsOf (tool : Json) : List Json :=
  elemsOf ((entriesOf tool).dlookup "functionDeclarations")

section survive

variable (codec : WireCodec)

/-- The members of a part; those of a call and of a response are a level of their own. -/
def partRel (key : String) (v w : Json) : Prop :=
  SameJson codec v w ∨ (key = "functionCall" ∨ key = "functionResponse") ∧ FlatKept codec v w

def PartKept : Json → Json → Prop := ObjectKept (partRel codec)

def contentRel (key : String) : Json → Json → Prop :=
  if key = "parts" then ArrayKept codec (PartKept codec) else SameJson codec

def ContentKept : Json → Json → Prop := ObjectKept (contentRel codec)

/-- A member of a tool is in a tool that is written, or it holds the declarations. -/
def ToolMemberKept (sent : List Json) (m : Sigma fun _ : String => Json) : Prop :=
  (∃ tool ∈ sent, ∃ w, (entriesOf tool).dlookup m.1 = some w ∧ SameJson codec m.2 w) ∨
    m.1 = "functionDeclarations" ∧ ∃ decls, m.2 = .arr decls

/-- The members of every tool are kept, and the declarations of all of them. -/
def ToolsKept (tools sent : List Json) : Prop :=
  (∀ tool ∈ tools, ∃ members, tool = .obj members ∧ ∀ m ∈ members, ToolMemberKept codec sent m) ∧
    List.Forall₂ (FlatKept codec) (tools.flatMap declarationsOf) (sent.flatMap declarationsOf)

/-- Nothing of the contents and of the tools is lost in what is written. -/
structure Survives (body : Json) (out : Members) : Prop where
  contents : ∀ elems, (requestOf body).dlookup "contents" = some (.arr elems) →
    List.Forall₂ (ContentKept codec) elems (elemsOf ((requestOf out.json).dlookup "contents"))
  tools : ∀ elems, (requestOf body).dlookup "tools" = some (.arr elems) →
    ToolsKept codec elems (elemsOf ((requestOf out.json).dlookup "tools"))

end survive

/-! ## The bodies that survive -/

def CallPlain (call : Entries) : Prop :=
  OnlyNames funcCallNames call ∧ (∀ v ∈ call.dlookup "name", v ≠ .null) ∧
    ∀ v ∈ call.dlookup "id", ¬ Omitted v

/-- The display name of a part of a response is not empty. -/
def ResponsePartPlain (part : Json) : Prop :=
  ∀ arm ∈ entriesOf part, ∀ v ∈ (entriesOf arm.2).dlookup "displayName", ¬ Omitted v

def ResponsePlain (response : Entries) : Prop :=
  (∀ v ∈ response.dlookup "id", ¬ Omitted v) ∧
    (∀ v ∈ response.dlookup "willContinue", v ≠ .null) ∧
    (∀ v ∈ response.dlookup "scheduling", v ≠ .null) ∧
    ∀ v ∈ response.dlookup "parts", ∃ elems, v = .arr elems ∧ elems ≠ [] ∧
      ∀ part ∈ elems, ResponsePartPlain part

section plain

variable (codec : WireCodec) (part : Entries)

/-- The signature and the metadata are read as they stand, and the signature is not
empty. -/
def FactsPlain : Prop :=
  (∀ v ∈ part.dlookup "thoughtSignature", ∃ s, v = .str s ∧ s ≠ "" ∧
      Format.decodeString "" (bound codec partNames part "thoughtSignature") = .ok s) ∧
    ∀ v ∈ part.dlookup "partMetadata",
      ∃ w ∈ rawMessage (bound codec partNames part "partMetadata"), SameJson codec v w

/-- The arm of a part. -/
def ArmPlain : Prop :=
  if "functionCall" ∈ part.keys then
    ∃ call, part.dlookup "functionCall" = some (.obj call) ∧ CallPlain call
  else if "functionResponse" ∈ part.keys then
    ∃ response, part.dlookup "functionResponse" = some (.obj response) ∧ ResponsePlain response
  else if "text" ∈ part.keys then
    part.dlookup "text" ≠ some .null ∧ ∀ v ∈ part.dlookup "thought", v = .bool true
  else
    -- An arm the adapter does not model must not be read as one it does, which it
    -- is when its name differs from it in case only.
    ∀ field ∈ ["text", "functionCall", "functionResponse"],
      ∀ v ∈ rawMessage (bound codec partNames part field), v = .null

def PartPlain : Prop := FactsPlain codec part ∧ ArmPlain codec part

/-- A user's text carries no signature. -/
def UserPartPlain : Prop :=
  PartPlain codec part ∧ ("text" ∈ part.keys → "thoughtSignature" ∉ part.keys)

/-- The content of the model a part is written to. -/
inductive PartSort where
  | text
  | call
  | result
  deriving DecidableEq, Repr

def partSort (part : Json) : PartSort :=
  if "functionCall" ∈ (entriesOf part).keys then .call
  else if "functionResponse" ∈ (entriesOf part).keys then .result
  else .text

/-- The parts of a model content are written to one content: they are all text, or
all calls, or one response on the Code Assist wire. -/
def Unsplit (codeAssist : Bool) (parts : List Json) : Prop :=
  ∃ sort, (∀ p ∈ parts, partSort p = sort) ∧
    (sort = .result → codeAssist = true ∧ parts.length = 1)

def ContentPlain (codeAssist : Bool) (content : Entries) : Prop :=
  OnlyNames contentNames content ∧
    ∃ parts, content.dlookup "parts" = some (.arr parts) ∧ parts ≠ [] ∧
      (content.dlookup "role" = some (.str "user") ∧
          (∀ p ∈ parts, UserPartPlain codec (entriesOf p)) ∨
        content.dlookup "role" = some (.str "model") ∧
          (∀ p ∈ parts, PartPlain codec (entriesOf p)) ∧ Unsplit codeAssist parts)

end plain

def DeclarationPlain (decl : Entries) : Prop :=
  OnlyNames funcDeclNames decl ∧ (∀ v ∈ decl.dlookup "name", v ≠ .null) ∧
    ∀ v ∈ decl.dlookup "description", ¬ Omitted v

/-- A tool holds declarations, and nothing else. -/
def ToolPlain (tool : Json) : Prop :=
  ∃ members, tool = .obj members ∧ ∀ m ∈ members, m.1 = "functionDeclarations" ∧
    ∃ decls, m.2 = .arr decls ∧ ∀ d ∈ decls, ∃ decl, d = .obj decl ∧ DeclarationPlain decl

structure Plain (codec : WireCodec) (body : Json) : Prop where
  contents : ∀ elems, (requestOf body).dlookup "contents" = some (.arr elems) →
    ∀ c ∈ elems, ∃ content, c = .obj content ∧
      ContentPlain codec (wrappedRequest body).isSome content
  tools : ∀ elems, (requestOf body).dlookup "tools" = some (.arr elems) →
    ∀ tool ∈ elems, ToolPlain tool

/-- `contents` and `tools` are read as if they were not spelled again in another case. -/
structure SpelledAlike (codec : WireCodec) (body : Json) : Prop where
  contents : ∀ v ∈ (requestOf body).dlookup "contents",
    decodeSlice ⟨"", []⟩ (fun _ => decodeContent codec)
        (bound codec requestNames (requestOf body) "contents") =
      decodeSlice ⟨"", []⟩ (fun _ => decodeContent codec) [v]
  tools : ∀ v ∈ (requestOf body).dlookup "tools",
    decodeSlice {} (decodeTool codec) (bound codec requestNames (requestOf body) "tools") =
      decodeSlice {} (decodeTool codec) [v]

/-! ## What is assumed of the texts -/

/-- A quoted string that reads as JSON reads as itself, and the text of an object
in the body reads as the object. -/
structure TextLaws (codec : GeminiCodec) : Prop where
  quoted : ∀ s v, codec.parse (codec.quote s) = .ok v → v = .str s
  spelled : ∀ i j members, strictJson (.obj members) = true →
    codec.spelling i j (.obj members) ≠ "" ∧
      codec.parse (codec.spelling i j (.obj members)) = .ok (.obj members)

end ToranaEdge.Format.Gemini
