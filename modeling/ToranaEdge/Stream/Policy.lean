import ToranaEdge.Lib.Attempt
import ToranaEdge.Signature
import ToranaEdge.Stream.Event

/-! # Field policies of a stream

`verifyStreamPolicy` charges every changed field of a returned stream to the
grant its policy names.  It walks messages by reflection, so the events are
first turned into field lists; the policies come from the plugin SDK's
registry, which is a parameter.

Events that are equal are reserved first, at the same position and then by
their wire bytes; only what is left is paired and compared.

No stream message has a repeated field, and the walk's list branches are
left out.  A decoded list of events has no nil entry.  What `proto.Equal` takes
for the same set of unknown fields is a parameter: the walk itself compares
unknown bytes as they stand. -/

namespace ToranaEdge.Policy

open Attempt List Align

/-! ## Reflected messages -/

/-- The messages a stream is made of. -/
inductive MessageName where
  | streamEvent
  | toolCallDelta
  | contentBlockStart
  | textBlock
  | thinkingBlock
  | toolCallRef
  | providerBlock
  | contentBlockStop
  | messageStart
  | messageStop
  | usage
  | streamError
  deriving DecidableEq, Repr

instance : ToString MessageName where
  toString
    | .streamEvent => "StreamEvent"
    | .toolCallDelta => "ToolCallDelta"
    | .contentBlockStart => "ContentBlockStart"
    | .textBlock => "TextBlock"
    | .thinkingBlock => "ThinkingBlock"
    | .toolCallRef => "ToolCallRef"
    | .providerBlock => "ProviderBlock"
    | .contentBlockStop => "ContentBlockStop"
    | .messageStart => "MessageStart"
    | .messageStop => "MessageStop"
    | .usage => "Usage"
    | .streamError => "StreamError"

inductive Scalar where
  | string (s : String)
  | int32 (n : Int32)
  | enum (n : Int32)
  deriving DecidableEq, Repr

def Scalar.isDefault : Scalar → Bool
  | .string s => s == ""
  | .int32 n => n == 0
  | .enum n => n == 0

/-- The value of a declared field. -/
inductive Field (χ : Type) where
  /-- A scalar without presence. -/
  | plain (value : Scalar)
  /-- A scalar with presence: optional, or an arm of a oneof. -/
  | optional (value : Option Scalar)
  /-- A message, with presence. -/
  | message (value : Option χ)

/-- A message whose submessages are of type `χ`, with its declared fields. -/
structure Message (χ : Type) where
  name : MessageName
  unknown : Bytes
  fields : List (String × Field χ)

/-- Messages with at most `n` levels of submessages. -/
def Reflected : Nat → Type
  | 0 => Message Empty
  | n + 1 => Message (Reflected n)

/-- `fieldMaterial`. -/
def Field.material {χ : Type} : Field χ → Bool
  | .plain value => !value.isDefault
  | .optional value => value.isSome
  | .message value => value.isSome

/-- The fields of a message, each with its message type if it has one. -/
def descriptor : MessageName → List (String × Option MessageName)
  | .streamEvent =>
    [("text_delta", none), ("thinking_delta", none), ("signature_delta", none),
      ("tool_call_delta", some .toolCallDelta), ("content_block_start", some .contentBlockStart),
      ("content_block_stop", some .contentBlockStop), ("message_start", some .messageStart),
      ("message_stop", some .messageStop), ("usage", some .usage), ("error", some .streamError)]
  | .toolCallDelta => [("index", none), ("arguments_delta", none), ("input_text_delta", none)]
  | .contentBlockStart =>
    [("index", none), ("text", some .textBlock), ("thinking", some .thinkingBlock),
      ("tool_call", some .toolCallRef), ("provider", some .providerBlock)]
  | .textBlock => []
  | .thinkingBlock => []
  | .toolCallRef => [("id", none), ("name", none), ("signature", none), ("invocation_kind", none)]
  | .providerBlock => [("kind", none)]
  | .contentBlockStop => [("index", none)]
  | .messageStart => [("role", none), ("id", none), ("model", none)]
  | .messageStop => [("finish_reason", none)]
  | .usage =>
    [("input_tokens", none), ("output_tokens", none), ("cache_read_tokens", none),
      ("cache_write_tokens", none)]
  | .streamError => [("code", none), ("message", none)]

section reflection

variable {χ : Type}

def string (s : String) : Field χ := .plain (.string s)

def int32 (n : Int32) : Field χ := .plain (.int32 n)

def reflectToolCallRef (c : ToolCallRef) : Message χ where
  name := .toolCallRef
  unknown := c.unknown
  fields := [("id", string c.id), ("name", string c.name), ("signature", string c.signature),
    ("invocation_kind", .plain (.enum c.invocationKind.number))]

def reflectProviderBlock (b : ProviderBlock) : Message χ where
  name := .providerBlock
  unknown := b.unknown
  fields := [("kind", string b.kind)]

def textArm : ContentBlock → Option (Message χ)
  | .text unknown => some ⟨.textBlock, unknown, []⟩
  | _ => none

def thinkingArm : ContentBlock → Option (Message χ)
  | .thinking unknown => some ⟨.thinkingBlock, unknown, []⟩
  | _ => none

def toolCallArm : ContentBlock → Option (Message χ)
  | .toolCall call => some (reflectToolCallRef call)
  | _ => none

def providerArm : ContentBlock → Option (Message χ)
  | .provider block => some (reflectProviderBlock block)
  | _ => none

def reflectContentBlockStart (s : ContentBlockStart) : Message (Message χ) where
  name := .contentBlockStart
  unknown := s.unknown
  fields := [("index", int32 s.index), ("text", .message (s.block.bind textArm)),
    ("thinking", .message (s.block.bind thinkingArm)),
    ("tool_call", .message (s.block.bind toolCallArm)),
    ("provider", .message (s.block.bind providerArm))]

def reflectContentBlockStop (s : ContentBlockStop) : Message χ where
  name := .contentBlockStop
  unknown := s.unknown
  fields := [("index", int32 s.index)]

def reflectToolCallDelta (d : ToolCallDelta) : Message χ where
  name := .toolCallDelta
  unknown := d.unknown
  fields := [("index", int32 d.index), ("arguments_delta", string d.argumentsDelta),
    ("input_text_delta", .optional (d.inputTextDelta.map Scalar.string))]

def reflectMessageStart (s : MessageStart) : Message χ where
  name := .messageStart
  unknown := s.unknown
  fields := [("role", string s.role), ("id", string s.id), ("model", string s.model)]

def reflectMessageStop (s : MessageStop) : Message χ where
  name := .messageStop
  unknown := s.unknown
  fields := [("finish_reason", string s.finishReason)]

def reflectUsage (u : Usage) : Message χ where
  name := .usage
  unknown := u.unknown
  fields := [("input_tokens", int32 u.inputTokens), ("output_tokens", int32 u.outputTokens),
    ("cache_read_tokens", int32 u.cacheReadTokens),
    ("cache_write_tokens", int32 u.cacheWriteTokens)]

def reflectStreamError (e : StreamError) : Message χ where
  name := .streamError
  unknown := e.unknown
  fields := [("code", int32 e.code), ("message", string e.message)]

/-- The field of each arm of the event oneof: every other field is absent. -/
def armFields (arm : Option EventArm) : List (String × Field (Message (Message χ))) :=
  [("text_delta", .optional (match arm with | some (.textDelta s) => some (.string s) | _ => none)),
   ("thinking_delta",
     .optional (match arm with | some (.thinkingDelta s) => some (.string s) | _ => none)),
   ("signature_delta",
     .optional (match arm with | some (.signatureDelta s) => some (.string s) | _ => none)),
   ("tool_call_delta", .message (match arm with
     | some (.toolCallDelta d) => some (reflectToolCallDelta d) | _ => none)),
   ("content_block_start", .message (match arm with
     | some (.contentBlockStart s) => some (reflectContentBlockStart s) | _ => none)),
   ("content_block_stop", .message (match arm with
     | some (.contentBlockStop s) => some (reflectContentBlockStop s) | _ => none)),
   ("message_start", .message (match arm with
     | some (.messageStart s) => some (reflectMessageStart s) | _ => none)),
   ("message_stop", .message (match arm with
     | some (.messageStop s) => some (reflectMessageStop s) | _ => none)),
   ("usage", .message (match arm with | some (.usage u) => some (reflectUsage u) | _ => none)),
   ("error", .message (match arm with | some (.error e) => some (reflectStreamError e) | _ => none))]

end reflection

/-- `ProtoReflect` of an event. -/
def reflect (ev : StreamEvent) : Reflected 2 :=
  (⟨.streamEvent, ev.unknown, armFields ev.event⟩ : Message (Message (Message Empty)))

/-! ## The protobuf library -/

/-- What the verifier takes from the protobuf library. -/
structure Protobuf where
  /-- `Marshal` with `Deterministic` set. -/
  marshal : StreamEvent → Except String Bytes
  /-- Two encodings hold the same set of unknown fields. -/
  equalUnknown : Bytes → Bytes → Bool
  equivalence : Equivalence fun x y => equalUnknown x y = true

section equal

variable {χ : Type} (child : χ → χ → Bool)

/-- `fieldEqual`; a submessage is compared as a message. -/
def Field.equal : Field χ → Field χ → Bool
  | .plain v, .plain w => v == w
  | .optional v, .optional w => v == w
  | .message none, .message none => true
  | .message (some a), .message (some b) => child a b
  | _, _ => false

variable (pb : Protobuf)

/-- One message type, the same values of the declared fields, and the same set of
unknown fields. -/
def Message.equal (a b : Message χ) : Bool :=
  a.name == b.name && pb.equalUnknown a.unknown b.unknown &&
    a.fields.isEqv b.fields fun f g => f.1 == g.1 && f.2.equal child g.2

/-- `proto.Equal`. -/
def protoEqual : (n : Nat) → Reflected n → Reflected n → Bool
  | 0 => Message.equal (fun m _ => m.elim) pb
  | n + 1 => Message.equal (protoEqual n) pb

def eventEqual (a b : StreamEvent) : Bool := protoEqual pb 2 (reflect a) (reflect b)

end equal

/-! ## The registry and the walk -/

inductive FieldPolicy where
  | hostOwned
  | boundSignature
  | «section» (name : String)
  | topology (name : String)
  | container
  | fixedContainer
  | delegate
  | unknown
  deriving DecidableEq, Repr

/-- The SDK's outbound registry. -/
structure Registry where
  registered : MessageName → Bool
  fieldNames : MessageName → List String
  policy : MessageName → String → FieldPolicy
  /-- `StreamTopologySection`. -/
  topologySection : String

section walk

variable (reg : Registry) (canWrite : String → Bool)

/-- `require`: a change of the field at the path is charged to the section. -/
def require (grant path : String) : Except String Unit :=
  if canWrite grant then .ok ()
  else .error s!"plugin changed stream field {path} without {grant}"

def topology (path : String) : Except String Unit := require canWrite reg.topologySection path

variable {χ : Type} (child : χ → String → Except String Unit)

def recursePresent (path : String) :
    Field χ → Except String Unit
  | .message (some m) => child m path
  | _ => .ok ()

/-- `changedPresent`: a material value on one side only. -/
def changedPresent (f : Field χ) (p : FieldPolicy)
    (path : String) : Except String Unit :=
  match p with
  | .hostOwned => .error s!"plugin changed host-owned stream field {path}"
  | .boundSignature => .ok ()
  | .section grant => do
    require canWrite grant path
    recursePresent child path f
  | .topology grant => do
    require canWrite grant path
    recursePresent child path f
  | .container => recursePresent child path f
  | .fixedContainer => recursePresent child path f
  | .delegate => recursePresent child path f
  | .unknown => .error s!"stream policy cannot add/remove {path}"

/-- `messagePresent`, given the same for its submessages. -/
def messagePresentWith (m : Message χ) (path : String) :
    Except String Unit :=
  if ¬ m.unknown.isEmpty then .error s!"plugin wrote unknown fields in stream {path}"
  else if ¬ reg.registered m.name then
    .error s!"stream policy has no registered message {m.name} at {path}"
  else (reg.fieldNames m.name).forM fun field =>
    match m.fields.lookup field with
    | none => .error s!"stream policy field {m.name}.{field} is absent from the descriptor"
    | some f =>
      if ¬ f.material then .ok ()
      else changedPresent canWrite child f (reg.policy m.name field) (path ++ "." ++ field)

variable (same : χ → χ → Bool) (diff : χ → χ → String → Except String Unit)

/-- `container`: only a message can be one. -/
def containerDiff (path : String) :
    Field χ → Field χ → Except String Unit
  | .message (some a), .message (some b) => diff a b path
  | _, _ => .error s!"stream policy container {path} is not a message"

/-- A changed section or topology field: a message present on both sides is
walked, a scalar is charged. -/
def chargedDiff (grant path : String) :
    Field χ → Field χ → Except String Unit
  | .message (some a), .message (some b) => diff a b path
  | _, _ => require canWrite grant path

/-- `changedBoth`: material and different on both sides. -/
def changedBoth (a b : Field χ) (p : FieldPolicy)
    (path : String) : Except String Unit :=
  match p with
  | .hostOwned => .error s!"plugin changed host-owned stream field {path}"
  | .boundSignature => .ok ()
  | .section grant => chargedDiff canWrite diff grant path a b
  | .topology grant => chargedDiff canWrite diff grant path a b
  | .container => containerDiff diff path a b
  | .fixedContainer => containerDiff diff path a b
  | .delegate => containerDiff diff path a b
  | .unknown => .error s!"stream policy has no mutation rule for {path}"

/-- `field`. -/
def fieldDiff (a b : Field χ) (p : FieldPolicy)
    (path : String) : Except String Unit :=
  match a.material, b.material with
  | false, false => .ok ()
  | true, false => changedPresent canWrite child a p path
  | false, true => changedPresent canWrite child b p path
  | true, true => if a.equal same b then .ok () else changedBoth canWrite diff a b p path

/-- `message`, given the same for its submessages. -/
def messageDiffWith (a b : Message χ) (path : String) : Except String Unit :=
  if a.unknown ≠ b.unknown then .error s!"plugin changed unknown fields in stream {path}"
  else if ¬ reg.registered a.name then
    .error s!"stream policy has no registered message {a.name} at {path}"
  else (reg.fieldNames a.name).forM fun field =>
    match a.fields.lookup field, b.fields.lookup field with
    | some f, some g =>
      fieldDiff canWrite child same diff f g (reg.policy a.name field) (path ++ "." ++ field)
    | _, _ => .error s!"stream policy field {a.name}.{field} is absent from the descriptor"

def messagePresent : (n : Nat) → Reflected n → String → Except String Unit
  | 0 => messagePresentWith reg canWrite fun m _ => m.elim
  | n + 1 => messagePresentWith reg canWrite (messagePresent n)

variable (pb : Protobuf)

/-- `message`. -/
def messageDiff : (n : Nat) → Reflected n → Reflected n → String → Except String Unit
  | 0 => messageDiffWith reg canWrite (fun m _ => m.elim) (fun m _ => m.elim) fun m _ _ => m.elim
  | n + 1 =>
    messageDiffWith reg canWrite (messagePresent reg canWrite n) (protoEqual pb n) (messageDiff n)

/-! ## The event sequence -/

/-- The Go type of the event's oneof arm. -/
def eventArm (ev : StreamEvent) : String :=
  match ev.event with
  | none => "<nil>"
  | some (.textDelta _) => "StreamEvent_TextDelta"
  | some (.thinkingDelta _) => "StreamEvent_ThinkingDelta"
  | some (.signatureDelta _) => "StreamEvent_SignatureDelta"
  | some (.toolCallDelta _) => "StreamEvent_ToolCallDelta"
  | some (.contentBlockStart _) => "StreamEvent_ContentBlockStart"
  | some (.contentBlockStop _) => "StreamEvent_ContentBlockStop"
  | some (.messageStart _) => "StreamEvent_MessageStart"
  | some (.messageStop _) => "StreamEvent_MessageStop"
  | some (.usage _) => "StreamEvent_Usage"
  | some (.error _) => "StreamEvent_Error"

def eventMissing (ev : StreamEvent) (path : String) : Except String Unit :=
  messagePresent reg canWrite 2 (reflect ev) path

/-- `event`. -/
def eventDiff (accepted returned : StreamEvent) (path : String) : Except String Unit :=
  if eventArm accepted ≠ eventArm returned then do
    topology reg canWrite (path ++ " action")
    eventMissing reg canWrite accepted path
    eventMissing reg canWrite returned path
  else messageDiff reg canWrite pb 2 (reflect accepted) (reflect returned) path

end walk

/-- An event with its place and its wire bytes. -/
structure Keyed where
  position : Nat
  wire : Bytes
  event : StreamEvent

variable (pb : Protobuf)

/-- The two events at the place are equal. -/
def samePosition (accepted returned : List StreamEvent) (i : Nat) : Bool :=
  match accepted[i]?, returned[i]? with
  | some a, some r => eventEqual pb a r
  | _, _ => false

/-- The events whose place is not reserved, in order, with their wire bytes. -/
def unreserved (reserved : Nat → Bool) (events : List StreamEvent) : Except String (List Keyed) :=
  (events.zipIdx.filter fun ev => !reserved ev.2).mapM fun ev =>
    (pb.marshal ev.1).map fun wire => { position := ev.2, wire, event := ev.1 }

/-- The second pass of `exactEventMatches`: each accepted event takes the first
returned one with its wire bytes that nobody took. -/
def matchByWire : List Keyed → List Keyed → List (Nat × Nat)
  | [], _ => []
  | a :: rest, returned =>
    match returned.find? fun r => r.wire == a.wire && eventEqual pb a.event r.event with
    | none => matchByWire rest returned
    | some r =>
      (a.position, r.position) :: matchByWire rest
        (returned.eraseP fun r => r.wire == a.wire && eventEqual pb a.event r.event)

/-- `exactEventMatches`: pairs of positions. -/
def exactEventMatches (accepted returned : List StreamEvent) :
    Except String (List (Nat × Nat)) := do
  let reserved := samePosition pb accepted returned
  let fixed := accepted.zipIdx.filter fun ev => reserved ev.2
  let keyedReturned ← unreserved pb reserved returned
  let keyedAccepted ← unreserved pb reserved accepted
  return (fixed.map fun ev => (ev.2, ev.2)) ++ matchByWire pb keyedAccepted keyedReturned

section transaction

variable (reg : Registry) (canWrite : String → Bool) (pb : Protobuf)

/-- The paired loop over the changed events, and then whichever side is longer. -/
def changedEvents (path : String) :
    List (StreamEvent × Nat) → List (StreamEvent × Nat) → Except String Unit
  | a :: accepted, r :: returned => do
    eventDiff reg canWrite pb a.1 r.1 s!"{path}[{a.2}→{r.2}]"
    changedEvents path accepted returned
  | [], returned => returned.forM fun r => eventMissing reg canWrite r.1 s!"{path}[{r.2}]"
  | accepted, [] => accepted.forM fun a => eventMissing reg canWrite a.1 s!"{path}[{a.2}]"

variable (accepted returned : List StreamEvent)

/-- `events`. -/
def eventsDiff (path : String) : Except String Unit := do
  if accepted.length ≠ returned.length then topology reg canWrite path
  match exactEventMatches pb accepted returned with
  | .error err => .error s!"stream policy exact correlation: {err}"
  | .ok found =>
    if found.any fun m => m.1 != m.2 then topology reg canWrite (path ++ " order")
    changedEvents reg canWrite pb path
      (accepted.zipIdx.filter fun ev => !(found.map Prod.fst).contains ev.2)
      (returned.zipIdx.filter fun ev => !(found.map Prod.snd).contains ev.2)

/-- `verifyStreamPolicy`; a missing grant lookup grants nothing. -/
def verifyStreamPolicy (canWrite : Option (String → Bool)) :
    Except String Unit :=
  eventsDiff reg (canWrite.getD grantNothing) pb accepted returned "events"

end transaction

/-! ## What the registry is assumed to say -/

/-- Host-owned, section or topology: a change is refused or charged. -/
def FieldPolicy.charges : FieldPolicy → Bool
  | .hostOwned => true
  | .section _ => true
  | .topology _ => true
  | _ => false

/-- The two fields that carry a provider token. -/
def tokenField : MessageName → String → Bool
  | .streamEvent, field => field == "signature_delta"
  | .toolCallRef, field => field == "signature"
  | _, _ => false

/-- Every stream message is registered with all its fields, and every leaf field
is host-owned, a section, topology or a bound signature. -/
structure CoversStream (reg : Registry) : Prop where
  registered : ∀ name, reg.registered name = true
  named : ∀ name, ∀ f ∈ descriptor name, f.1 ∈ reg.fieldNames name
  leaves : ∀ name, ∀ f ∈ descriptor name, f.2 = none →
    (reg.policy name f.1).charges = true ∨ reg.policy name f.1 = .boundSignature

/-- Only the two tokens are bound signatures, and the arms of a block start,
which are messages and no leaves, are charged like leaves: their presence is
a fact of its own. -/
structure ChargesArms (reg : Registry) : Prop where
  tokens : ∀ name field, reg.policy name field = .boundSignature → tokenField name field = true
  arms : ∀ f ∈ descriptor .contentBlockStart, (reg.policy .contentBlockStart f.1).charges = true

/-! ## A walk without grants -/

section ungranted

variable {χ : Type}

def Scalar.kind : Scalar → Nat
  | .string _ => 0
  | .int32 _ => 1
  | .enum _ => 2

lemma Scalar.eq_of_isDefault {v w : Scalar} (hkind : v.kind = w.kind) (hv : v.isDefault = true)
    (hw : w.isDefault = true) : v = w := by
  cases v <;> cases w <;> simp_all [kind, isDefault]

def Field.isMessage : Field χ → Bool
  | .message _ => true
  | _ => false

/-- The field has the same presence on both sides, where it has presence. -/
def SamePresence : Field χ → Field χ → Prop
  | .optional v, .optional w => v.isSome = w.isSome
  | .message a, .message b => a.isSome = b.isSome
  | _, _ => True

/-- Two values of one declared field. -/
def Field.Aligned (child : χ → χ → Prop) : Field χ → Field χ → Prop
  | .plain v, .plain w => v.kind = w.kind
  | .optional _, .optional _ => True
  | .message a, .message b => ∀ x ∈ a, ∀ y ∈ b, child x y
  | _, _ => False

/-- The value with a token blanked, and with the tokens of a submessage. -/
def Field.blank (token : Bool) (child : χ → χ) : Field χ → Field χ
  | .plain v => .plain (if token then .string "" else v)
  | .optional v => .optional (if token then v.map fun _ => .string "" else v)
  | .message m => .message (m.map child)

section equal

variable {same : χ → χ → Bool} {pb : Protobuf}

lemma Field.equal_self (hsame : ∀ x, same x x = true) (f : Field χ) : f.equal same f = true := by
  cases f with
  | plain v | optional v => simp [equal]
  | message m => cases m <;> simp [equal, hsame]

variable {f g : Field χ} {token : Bool} {blankChild : χ → χ}

lemma Field.material_eq (h : f.equal same g = true) : f.material = g.material := by
  match f, g with
  | .plain v, .plain w | .optional v, .optional w => simp_all [equal]
  | .message none, .message none | .message (some _), .message (some _) => rfl

lemma Field.equal_blank
    (hsame : ∀ x y, same x y = true → same (blankChild x) (blankChild y) = true)
    (h : f.equal same g = true) :
    (f.blank token blankChild).equal same (g.blank token blankChild) = true := by
  match f, g with
  | .plain v, .plain w | .optional v, .optional w => simp_all [equal, blank]
  | .message none, .message none => rfl
  | .message (some x), .message (some y) => exact hsame x y h

variable {a b : Message χ}

lemma Message.equal_iff : a.equal same pb b = true ↔
    a.name = b.name ∧ pb.equalUnknown a.unknown b.unknown = true ∧
      Forall₂ (fun f g => f.1 = g.1 ∧ f.2.equal same g.2 = true) a.fields b.fields := by
  simp only [equal, Bool.and_eq_true, beq_iff_eq, isEqv_iff_forall₂, and_assoc]

end equal

lemma require_grantNothing (grant path : String) : require grantNothing grant path ≠ .ok () := by
  intro h
  cases h

variable {child : χ → String → Except String Unit} {p : FieldPolicy} {path : String} {f : Field χ}

/-- Without grants a charged value cannot come or go. -/
lemma changedPresent_charged (hp : p.charges = true) :
    changedPresent grantNothing child f p path ≠ .ok () := by
  intro h
  cases p with
  | hostOwned | «section» grant | topology grant => cases h
  | boundSignature | container | fixedContainer | delegate | unknown => cases hp

variable {diff : χ → χ → String → Except String Unit} {related : χ → χ → Prop} {blankChild : χ → χ}
  {same : χ → χ → Bool} {pb : Protobuf} {d : String × Option MessageName} {name : MessageName}
  {reg : Registry}

/-- Without grants a charged scalar cannot change. -/
lemma changedBoth_charged {g : Field χ} (hp : p.charges = true) (hf : f.isMessage = false) :
    changedBoth grantNothing diff f g p path ≠ .ok () := by
  intro h
  cases p with
  | hostOwned => cases h
  | «section» grant | topology grant =>
    cases f with
    | message m => cases hf
    | plain v => cases h
    | optional v => cases h
  | boundSignature | container | fixedContainer | delegate | unknown => cases hp

/-- A message that changed under any policy but a bound signature was walked. -/
lemma changedBoth_message {x y : χ} (hp : p ≠ .boundSignature)
    (h : changedBoth grantNothing diff (.message (some x)) (.message (some y)) p path = .ok ()) :
    diff x y path = .ok () := by
  cases p with
  | hostOwned => cases h
  | boundSignature => exact absurd rfl hp
  | «section» grant | topology grant | container | fixedContainer | delegate => exact h
  | unknown => cases h

section field

variable (hsame : ∀ x y, same x y = true → same (blankChild x) (blankChild y) = true)
  (hdiff : ∀ x y path, related x y → diff x y path = .ok () →
    same (blankChild x) (blankChild y) = true)
include hsame hdiff

/-- **One field without grants.**  Outside the tokens it is unchanged. -/
theorem fieldDiff_blank {g : Field χ} {token : Bool} (haligned : f.Aligned related g)
    (hleaf : f.isMessage = false → p.charges = true ∨ p = .boundSignature)
    (hmessage : f.isMessage = true → p ≠ .boundSignature)
    (htoken : p = .boundSignature → token = true) (hpresence : p.charges = true ∨ SamePresence f g)
    (h : fieldDiff grantNothing child same diff f g p path = .ok ()) :
    (f.blank token blankChild).equal same (g.blank token blankChild) = true := by
  by_cases hequal : f.equal same g = true
  · exact Field.equal_blank hsame hequal
  unfold fieldDiff at h
  -- a charged field that is no message has changed, so it is absent on both sides
  have hcharged : p.charges = true → f.isMessage = false →
      f.material = false ∧ g.material = false := by
    intro hp hf
    split at h
    · next hfm hgm => exact ⟨hfm, hgm⟩
    · exact absurd h (changedPresent_charged hp)
    · exact absurd h (changedPresent_charged hp)
    · rw [if_neg hequal] at h
      exact absurd h (changedBoth_charged hp hf)
  match f, g, haligned with
  | .plain v, .plain w, hkind =>
    rcases hleaf rfl with hp | hp
    · obtain ⟨hv, hw⟩ := hcharged hp rfl
      have hvw : v = w := Scalar.eq_of_isDefault hkind (by simpa [Field.material] using hv)
        (by simpa [Field.material] using hw)
      simp [hvw, Field.blank, Field.equal]
    · simp [Field.blank, Field.equal, htoken hp]
  | .optional v, .optional w, _ =>
    rcases hleaf rfl with hp | hp
    · obtain ⟨hv, hw⟩ := hcharged hp rfl
      have hnone : v = none ∧ w = none := by simpa [Field.material] using And.intro hv hw
      simp [hnone, Field.blank, Field.equal]
    rcases hpresence with hcharges | hsome
    · rw [hp] at hcharges
      cases hcharges
    have hmap : (v.map fun _ => Scalar.string "") = w.map fun _ => Scalar.string "" := by
      cases v <;> cases w <;> simp_all [SamePresence]
    simp [Field.blank, Field.equal, htoken hp, hmap]
  | .message none, .message none, _ => rfl
  | .message none, .message (some _), _ | .message (some _), .message none, _ =>
    rcases hpresence with hp | hsome
    · exact absurd h (changedPresent_charged hp)
    · cases hsome
  | .message (some x), .message (some y), hchild =>
    have hboth : changedBoth grantNothing diff (.message (some x)) (.message (some y)) p
      path = .ok () := by simpa [Field.material, hequal] using h
    exact hdiff x y path (hchild x rfl y rfl) (changedBoth_message (hmessage rfl) hboth)

end field

/-- Two messages of one type: their fields are the declared ones, and presence
agrees wherever the policy alone would not make it. -/
structure Message.Aligned (child : χ → χ → Prop) (a b : Message χ) : Prop where
  name : a.name = b.name
  shape : (a.fields.map fun f => (f.1, f.2.isMessage)) =
    (descriptor a.name).map fun d => (d.1, d.2.isSome)
  fields : Forall₂ (fun f g => f.1 = g.1 ∧ f.2.Aligned child g.2 ∧
    (a.name = .streamEvent ∨ tokenField a.name f.1 = true → SamePresence f.2 g.2)) a.fields b.fields

def Message.blank (child : χ → χ) (m : Message χ) : Message χ :=
  { m with fields := m.fields.map fun f => (f.1, f.2.blank (tokenField m.name f.1) child) }

lemma Message.equal_blank {a b : Message χ}
    (hsame : ∀ x y, same x y = true → same (blankChild x) (blankChild y) = true)
    (h : a.equal same pb b = true) :
    (a.blank blankChild).equal same pb (b.blank blankChild) = true := by
  obtain ⟨hname, hunknown, hfields⟩ := equal_iff.mp h
  refine equal_iff.mpr ⟨hname, hunknown, ?_⟩
  unfold blank
  rw [forall₂_map_left_iff, forall₂_map_right_iff]
  refine hfields.imp fun f g ⟨hkey, hfg⟩ => ⟨hkey, ?_⟩
  rw [hname, hkey]
  exact Field.equal_blank hsame hfg

lemma descriptor_nodup (name : MessageName) : ((descriptor name).map Prod.fst).Nodup := by
  cases name <;> decide

/-- A message-valued field is an arm of an event or of a block start. -/
lemma name_of_message (hd : d ∈ descriptor name) (hsome : d.2.isSome = true) :
    name = .streamEvent ∨ name = .contentBlockStart := by
  cases name <;> simp [descriptor] at hd <;> aesop

/-- The tokens are scalars. -/
lemma not_tokenField_of_message (hd : d ∈ descriptor name) (hsome : d.2.isSome = true) :
    tokenField name d.1 = false := by
  cases name <;> simp [descriptor] at hd <;> aesop

/-- The walk refuses any change of the unknown bytes, in order or in value. -/
lemma unknown_of_messageDiffWith {canWrite : String → Bool} {a b : Message χ}
    (h : messageDiffWith reg canWrite child same diff a b path = .ok ()) :
    a.unknown = b.unknown := by
  by_contra hne
  rw [messageDiffWith, if_pos hne] at h
  cases h

/-- **One message without grants.** -/
theorem messageDiffWith_blank (hcovers : CoversStream reg) (harms : ChargesArms reg)
    (hsame : ∀ x y, same x y = true → same (blankChild x) (blankChild y) = true)
    (hdiff : ∀ x y path, related x y → diff x y path = .ok () →
      same (blankChild x) (blankChild y) = true)
    {a b : Message χ} (haligned : a.Aligned related b)
    (h : messageDiffWith reg grantNothing child same diff a b path = .ok ()) :
    (a.blank blankChild).equal same pb (b.blank blankChild) = true := by
  have hunknown := unknown_of_messageDiffWith h
  rw [messageDiffWith, if_neg (not_not.mpr hunknown)] at h
  split at h
  · cases h
  have hwalk := forM_eq_ok.mp h
  have hkeys : a.fields.map Prod.fst = (descriptor a.name).map Prod.fst := by
    have := congrArg (map Prod.fst) haligned.shape
    simpa [Function.comp_def] using this
  have hanodup : (a.fields.map Prod.fst).Nodup := hkeys ▸ descriptor_nodup a.name
  have hbkeys : a.fields.map Prod.fst = b.fields.map Prod.fst := by
    exact map_eq_iff_forall₂.mpr (haligned.fields.imp fun _ _ hfg => hfg.1)
  have hbnodup : (b.fields.map Prod.fst).Nodup := hbkeys ▸ hanodup
  have hfields : Forall₂ (fun f g => f.1 = g.1 ∧
      (f.2.blank (tokenField a.name f.1) blankChild).equal same
        (g.2.blank (tokenField a.name g.1) blankChild) = true) a.fields b.fields := by
    have hall := haligned.fields
    rw [forall₂_iff_zip] at hall ⊢
    refine ⟨hall.1, ?_⟩
    intro f g hfg
    obtain ⟨hname, hval, hpres⟩ := hall.2 hfg
    have hf : f ∈ a.fields := (of_mem_zip hfg).1
    have hg : g ∈ b.fields := (of_mem_zip hfg).2
    -- the field is declared, so the registry names it and the walk compared it
    obtain ⟨d, hd, hdf⟩ : ∃ d ∈ descriptor a.name, (d.1, d.2.isSome) = (f.1, f.2.isMessage) := by
      have hmem : (f.1, f.2.isMessage) ∈ (descriptor a.name).map fun d => (d.1, d.2.isSome) := by
        rw [← haligned.shape]
        exact mem_map_of_mem hf
      simpa using mem_map.mp hmem
    rw [Prod.mk.injEq] at hdf
    have hnamed : f.1 ∈ reg.fieldNames a.name := hdf.1 ▸ hcovers.named a.name d hd
    have hcompare := hwalk f.1 hnamed
    have hlookupB : b.fields.lookup f.1 = some g.2 := hname ▸ lookup_of_mem hbnodup hg
    rw [lookup_of_mem hanodup hf, hlookupB] at hcompare
    have hleaf : f.2.isMessage = false → (reg.policy a.name f.1).charges = true ∨
        reg.policy a.name f.1 = .boundSignature := by
      intro hmsg
      have hnone : d.2 = none := by
        rw [← Option.not_isSome_iff_eq_none, hdf.2, hmsg]
        decide
      exact hdf.1 ▸ hcovers.leaves a.name d hd hnone
    have hmessage : f.2.isMessage = true → reg.policy a.name f.1 ≠ .boundSignature := by
      intro hmsg hbound
      have htok := harms.tokens _ _ hbound
      rw [← hdf.1, not_tokenField_of_message hd (hdf.2.trans hmsg)] at htok
      cases htok
    have hpresence : (reg.policy a.name f.1).charges = true ∨ SamePresence f.2 g.2 := by
      cases hmsg : f.2.isMessage with
      | false =>
        rcases hleaf hmsg with hcharges | hbound
        · exact .inl hcharges
        · exact .inr (hpres (.inr (harms.tokens _ _ hbound)))
      | true =>
      rcases name_of_message hd (hdf.2.trans hmsg) with hevent | hstart
      · exact .inr (hpres (.inl hevent))
      left
      rw [hstart] at hd ⊢
      exact hdf.1 ▸ harms.arms d hd
    refine ⟨hname, ?_⟩
    rw [← hname]
    exact fieldDiff_blank hsame hdiff hval hleaf hmessage (harms.tokens _ _) hpresence hcompare
  refine Message.equal_iff.mpr ⟨haligned.name, ?_, ?_⟩
  · show pb.equalUnknown a.unknown b.unknown = true
    rw [hunknown]
    exact pb.equivalence.refl _
  · unfold Message.blank
    rw [forall₂_map_left_iff, forall₂_map_right_iff, ← haligned.name]
    exact hfields

/-- Two messages of one type, at every level. -/
def Aligned : (n : Nat) → Reflected n → Reflected n → Prop
  | 0 => Message.Aligned fun _ _ => True
  | n + 1 => Message.Aligned (Aligned n)

/-- A message without its tokens. -/
def blank : (n : Nat) → Reflected n → Reflected n
  | 0 => Message.blank id
  | n + 1 => Message.blank (blank n)

/-- Equal messages are equal without their tokens. -/
lemma protoEqual_blank : ∀ (n : Nat) (a b : Reflected n),
    protoEqual pb n a b = true → protoEqual pb n (blank n a) (blank n b) = true := by
  intro n
  induction n with
  | zero =>
    intro a b h
    refine Message.equal_blank ?_ h
    intro x
    exact x.elim
  | succ n ih =>
    intro a b h
    exact Message.equal_blank ih h

/-- **A whole message without grants**: outside the tokens it is unchanged. -/
theorem messageDiff_blank (hcovers : CoversStream reg) (harms : ChargesArms reg) :
    ∀ (n : Nat) (a b : Reflected n) (path : String), Aligned n a b →
      messageDiff reg grantNothing pb n a b path = .ok () →
        protoEqual pb n (blank n a) (blank n b) = true := by
  intro n
  induction n with
  | zero =>
    intro a b path haligned h
    refine messageDiffWith_blank hcovers harms ?_ ?_ haligned h <;>
    · intro x
      exact x.elim
  | succ n ih =>
    intro a b path haligned h
    exact messageDiffWith_blank hcovers harms (protoEqual_blank n) ih haligned h

end ungranted

/-! ## Events without their tokens -/

def blankCall (c : ToolCallRef) : ToolCallRef := { c with signature := "" }

def blankBlock : ContentBlock → ContentBlock
  | .toolCall call => .toolCall (blankCall call)
  | block => block

def blankStart (s : ContentBlockStart) : ContentBlockStart :=
  { s with block := s.block.map blankBlock }

def blankArm : EventArm → EventArm
  | .signatureDelta _ => .signatureDelta ""
  | .contentBlockStart start => .contentBlockStart (blankStart start)
  | arm => arm

/-- The event with both kinds of token blanked. -/
def blankEvent (ev : StreamEvent) : StreamEvent := { ev with event := ev.event.map blankArm }

/-- The two events have the same arm. -/
inductive SameArm : Option EventArm → Option EventArm → Prop where
  | none : SameArm none none
  | textDelta (s t : String) : SameArm (some (.textDelta s)) (some (.textDelta t))
  | thinkingDelta (s t : String) : SameArm (some (.thinkingDelta s)) (some (.thinkingDelta t))
  | signatureDelta (s t : String) : SameArm (some (.signatureDelta s)) (some (.signatureDelta t))
  | toolCallDelta (c d : ToolCallDelta) :
    SameArm (some (.toolCallDelta c)) (some (.toolCallDelta d))
  | contentBlockStart (s t : ContentBlockStart) :
    SameArm (some (.contentBlockStart s)) (some (.contentBlockStart t))
  | contentBlockStop (s t : ContentBlockStop) :
    SameArm (some (.contentBlockStop s)) (some (.contentBlockStop t))
  | messageStart (s t : MessageStart) : SameArm (some (.messageStart s)) (some (.messageStart t))
  | messageStop (s t : MessageStop) : SameArm (some (.messageStop s)) (some (.messageStop t))
  | usage (u v : Usage) : SameArm (some (.usage u)) (some (.usage v))
  | error (d e : StreamError) : SameArm (some (.error d)) (some (.error e))

variable {a b : StreamEvent}

lemma sameArm_of_eventArm (h : eventArm a = eventArm b) : SameArm a.event b.event := by
  rcases a with _ | a
  · rcases b with _ | b
    · exact .none
    · cases b <;> simp [eventArm] at h
  rcases b with _ | b
  · cases a <;> simp [eventArm] at h
  · cases a <;> cases b <;> first | constructor | simp [eventArm] at h

variable {arm arm' : Option EventArm}

section messages

variable {χ : Type}

/-- Two block starts of one kind: their messages are of scalars. -/
lemma aligned_contentBlock {child : χ → χ → Prop} {arm : ContentBlock → Option (Message χ)}
    (harm : arm = textArm ∨ arm = thinkingArm ∨ arm = toolCallArm ∨ arm = providerArm)
    {b b' : ContentBlock} {x y : Message χ} (hx : arm b = some x) (hy : arm b' = some y) :
    x.Aligned child y := by
  rcases harm with rfl | rfl | rfl | rfl <;> cases b <;> cases hx <;> cases b' <;> cases hy <;>
    refine ⟨rfl, rfl, ?_⟩ <;>
    simp [reflectToolCallRef, reflectProviderBlock, string, Field.Aligned, Scalar.kind, SamePresence]

lemma aligned_contentBlockStart (child : χ → χ → Prop) (c d : ContentBlockStart) :
    (reflectContentBlockStart c).Aligned (Message.Aligned child) (reflectContentBlockStart d) := by
  refine ⟨rfl, rfl, ?_⟩
  simp only [reflectContentBlockStart, forall₂_cons, forall₂_nil_left_iff, true_and, Field.Aligned,
    int32, Scalar.kind, tokenField, or_false, reduceCtorEq, false_implies, and_true, Option.mem_def,
    Option.bind_eq_some_iff]
  refine ⟨?_, ?_, ?_, ?_⟩ <;> rintro x ⟨b, -, hx⟩ y ⟨b', -, hy⟩ <;>
    exact aligned_contentBlock (by simp) hx hy

/-- Events of one arm have the same fields present. -/
lemma aligned_armFields (child : χ → χ → Prop)
    (h : SameArm arm arm') : Forall₂ (fun f g => f.1 = g.1 ∧
      f.2.Aligned (Message.Aligned (Message.Aligned child)) g.2 ∧ SamePresence f.2 g.2)
      (armFields arm) (armFields arm') := by
  cases h with
  | none | textDelta s t | thinkingDelta s t | signatureDelta s t =>
    simp [armFields, Field.Aligned, SamePresence]
  | contentBlockStart s t =>
    simpa [armFields, Field.Aligned, SamePresence] using aligned_contentBlockStart child s t
  | toolCallDelta c d | contentBlockStop c d | messageStart c d | messageStop c d | usage c d
  | error c d =>
    -- a message of scalars
    simp only [armFields, forall₂_cons, forall₂_nil_left_iff, Field.Aligned, SamePresence,
      Option.mem_def, Option.some.injEq, forall_eq', Option.isSome_some, reduceCtorEq,
      false_implies, implies_true, and_true, true_and]
    refine ⟨rfl, rfl, ?_⟩
    simp [reflectToolCallDelta, reflectContentBlockStop, reflectMessageStart, reflectMessageStop,
      reflectUsage, reflectStreamError, int32, string, Field.Aligned, Scalar.kind, tokenField]

end messages

lemma aligned_reflect (h : SameArm a.event b.event) : Aligned 2 (reflect a) (reflect b) := by
  refine ⟨rfl, rfl, ?_⟩
  exact (aligned_armFields (fun _ _ => True) h).imp fun _ _ hfg => ⟨hfg.1, hfg.2.1, fun _ => hfg.2.2⟩

section blanking

variable {χ : Type}

lemma blank_contentBlockStart (child : χ → χ) (s : ContentBlockStart) :
    (reflectContentBlockStart s).blank (Message.blank child) =
      reflectContentBlockStart (blankStart s) := by
  obtain ⟨index, block, unknown⟩ := s
  rcases block with _ | block
  · rfl
  · cases block <;> rfl

lemma blank_armFields (child : χ → χ) (arm : Option EventArm) :
    ((armFields arm).map fun f => (f.1, f.2.blank (tokenField .streamEvent f.1)
      (Message.blank (Message.blank child)))) = armFields (arm.map blankArm) := by
  rcases arm with _ | arm
  · rfl
  cases arm with
  | contentBlockStart s =>
    have hstart := blank_contentBlockStart child s
    simp [armFields, Field.blank, blankArm, hstart]
  | _ => rfl

end blanking

/-- Blanking the reflected tokens reflects the blanked event. -/
lemma blank_reflect (ev : StreamEvent) : blank 2 (reflect ev) = reflect (blankEvent ev) := by
  show Message.blank (Message.blank (Message.blank id)) _ = _
  unfold Message.blank
  congr 1
  exact blank_armFields id ev.event

/-! ### Equal events -/

variable {pb : Protobuf}

lemma protoEqual_self : ∀ (n : Nat) (m : Reflected n), protoEqual pb n m m = true := by
  have hmessage : ∀ {χ : Type} {same : χ → χ → Bool}, (∀ x, same x x = true) →
      ∀ m : Message χ, m.equal same pb m = true := by
    intro χ same hsame m
    refine Message.equal_iff.mpr ⟨rfl, pb.equivalence.refl _, forall₂_same.mpr ?_⟩
    exact fun f _ => ⟨rfl, Field.equal_self hsame f.2⟩
  intro n
  induction n with
  | zero => exact hmessage fun x => x.elim
  | succ n ih => exact hmessage ih

lemma eventEqual_self (ev : StreamEvent) : eventEqual pb ev ev = true := protoEqual_self 2 _

/-- Events of one value are equal exactly if their unknown fields are. -/
lemma eventEqual_iff_of_event (h : a.event = b.event) :
    eventEqual pb a b = true ↔ pb.equalUnknown a.unknown b.unknown = true := by
  have hfields := (Message.equal_iff.mp (@eventEqual_self pb a)).2.2
  refine Message.equal_iff.trans ⟨fun hab => hab.2.1, fun hab => ⟨rfl, hab, ?_⟩⟩
  show Forall₂ _ (armFields a.event) (armFields b.event)
  rw [← h]
  exact hfields

def stripBlock : ContentBlock → ContentBlock
  | .text _ => .text []
  | .thinking _ => .thinking []
  | .toolCall call => .toolCall { call with unknown := [] }
  | .provider block => .provider { block with unknown := [] }

def stripStart (s : ContentBlockStart) : ContentBlockStart :=
  { s with block := s.block.map stripBlock, unknown := [] }

def stripArm : EventArm → EventArm
  | .toolCallDelta delta => .toolCallDelta { delta with unknown := [] }
  | .contentBlockStart start => .contentBlockStart (stripStart start)
  | .contentBlockStop stop => .contentBlockStop { stop with unknown := [] }
  | .messageStart start => .messageStart { start with unknown := [] }
  | .messageStop stop => .messageStop { stop with unknown := [] }
  | .usage usage => .usage { usage with unknown := [] }
  | .error error => .error { error with unknown := [] }
  | arm => arm

/-- The event without the unknown bytes of any of its messages. -/
def stripEvent (ev : StreamEvent) : StreamEvent := { event := ev.event.map stripArm }

section equal

variable {χ : Type} {same : χ → χ → Bool}

/-- The field that is present tells the arm. -/
lemma sameArm_of_armFields {same : Message (Message χ) → Message (Message χ) → Bool}
    (h : Forall₂ (fun f g => f.1 = g.1 ∧ f.2.equal same g.2 = true)
      (armFields arm) (armFields arm')) : SameArm arm arm' := by
  have hpresent := h.imp fun _ _ hfg => Field.material_eq hfg.2
  rw [← map_eq_iff_forall₂] at hpresent
  rcases arm with _ | a <;> rcases arm' with _ | b
  · exact .none
  · cases b <;> cases hpresent
  · cases a <;> cases hpresent
  · cases a <;> cases b <;> first | constructor | cases hpresent

lemma stripStart_eq_of_equal {s t : ContentBlockStart}
    (h : (reflectContentBlockStart s).equal (Message.equal same pb) pb
      (reflectContentBlockStart t) = true) : stripStart s = stripStart t := by
  obtain ⟨_, block, _⟩ := s
  obtain ⟨_, block', _⟩ := t
  have h := (Message.equal_iff.mp h).2.2
  rcases block with _ | (_ | _ | c | _) <;> rcases block' with _ | (_ | _ | c' | _) <;>
    simp [reflectContentBlockStart, Message.equal_iff, Field.equal, int32, string, textArm,
      thinkingArm, toolCallArm, providerArm, reflectToolCallRef, reflectProviderBlock] at h
  all_goals simp_all [stripStart, stripBlock]
  exact ToolInvocationKind.number_inj h.2.2.2.2.2

lemma stripArm_eq_of_equal (h : Forall₂ (fun f g => f.1 = g.1 ∧
      f.2.equal (Message.equal (Message.equal same pb) pb) g.2 = true)
      (armFields arm) (armFields arm')) : arm.map stripArm = arm'.map stripArm := by
  have hsame := sameArm_of_armFields h
  simp only [armFields, forall₂_cons, Field.equal, true_and] at h
  cases hsame with
  | none => rfl
  | textDelta s t | thinkingDelta s t | signatureDelta s t => simpa [stripArm] using h
  | contentBlockStart s t => simp [stripArm, stripStart_eq_of_equal h.2.2.2.2.1]
  | toolCallDelta c d =>
    have hdelta := (Message.equal_iff.mp h.2.2.2.1).2.2
    simp [reflectToolCallDelta, Field.equal, int32, string] at hdelta
    have hinput := Option.map_injective (fun _ _ => Scalar.string.inj) hdelta.2.2
    simp [stripArm, hdelta, hinput]
  | contentBlockStop c d | messageStart c d | messageStop c d | usage c d | error c d =>
    simp [Message.equal_iff, Field.equal, reflectContentBlockStop, reflectMessageStart,
      reflectMessageStop, reflectUsage, reflectStreamError, int32, string] at h
    simp [stripArm, h]

end equal

/-- Equal events have the same declared fields. -/
lemma stripEvent_eq_of_eventEqual (h : eventEqual pb a b = true) : stripEvent a = stripEvent b :=
  congrArg (StreamEvent.mk · []) (stripArm_eq_of_equal (Message.equal_iff.mp h).2.2)

lemma eventEqual_blankEvent (h : eventEqual pb a b = true) :
    eventEqual pb (blankEvent a) (blankEvent b) = true := by
  have hblank := protoEqual_blank 2 _ _ h
  rwa [blank_reflect, blank_reflect] at hblank

variable {reg : Registry} {path : String}

/-- What the walk leaves of an event without grants: all but its tokens, and where
it is no equal event, its unknown bytes as they stand. -/
structure Kept (pb : Protobuf) (a r : StreamEvent) : Prop where
  blank : eventEqual pb (blankEvent a) (blankEvent r) = true
  unknown : eventEqual pb a r = true ∨ a.unknown = r.unknown

/-- **One event without grants**: outside the tokens it is unchanged. -/
theorem kept_of_eventDiff (hcovers : CoversStream reg) (harms : ChargesArms reg)
    {a r : StreamEvent} (h : eventDiff reg grantNothing pb a r path = .ok ()) : Kept pb a r := by
  unfold eventDiff at h
  split at h
  · cases h
  next harm =>
  have haligned := aligned_reflect (sameArm_of_eventArm (not_not.mp harm))
  have hblank := messageDiff_blank hcovers harms 2 _ _ path haligned h
  rw [blank_reflect, blank_reflect] at hblank
  exact ⟨hblank, .inr (unknown_of_messageDiffWith h)⟩

/-! ## The event sequence without grants -/

variable {reserved : Nat → Bool}

lemma mem_unreserved {events : List StreamEvent} {keyed : List Keyed}
    (h : unreserved pb reserved events = .ok keyed) :
    (∀ k ∈ keyed, events[k.position]? = some k.event ∧ reserved k.position = false ∧
        pb.marshal k.event = .ok k.wire) ∧
      ∀ (i : Nat) ev, events[i]? = some ev → reserved i = false → ∃ k ∈ keyed, k.event = ev := by
  constructor
  · intro k hk
    obtain ⟨ev, hev, hkey⟩ := exists_of_mem_mapM h hk
    obtain ⟨wire, hwire, rfl⟩ := map_eq_ok.mp hkey
    obtain ⟨hmem, hfree⟩ := mem_filter.mp hev
    exact ⟨mem_zipIdx_iff_getElem?.mp hmem, by simpa using hfree, hwire⟩
  · intro i ev hev hfree
    have hmem : (ev, i) ∈ events.zipIdx.filter fun ev => !reserved ev.2 := by
      rw [mem_filter]
      exact ⟨mem_zipIdx_iff_getElem?.mpr hev, by simpa using hfree⟩
    obtain ⟨k, hk, hkey⟩ := exists_ok_of_mem h hmem
    obtain ⟨wire, -, rfl⟩ := map_eq_ok.mp hkey
    exact ⟨_, hk, rfl⟩

/-- A pair found by wire bytes is a pair of equal events. -/
lemma exists_of_mem_matchByWire {as rs : List Keyed} {m : Nat × Nat}
    (h : m ∈ matchByWire pb as rs) :
    ∃ a ∈ as, ∃ r ∈ rs, m = (a.position, r.position) ∧ eventEqual pb a.event r.event = true := by
  induction as generalizing rs with
  | nil => cases h
  | cons a as ih =>
  unfold matchByWire at h
  split at h
  · obtain ⟨a', ha', r, hr, hm⟩ := ih h
    exact ⟨a', mem_cons_of_mem a ha', r, hr, hm⟩
  next r hfind =>
  rcases mem_cons.mp h with rfl | h
  · have hkey := find?_some hfind
    rw [Bool.and_eq_true] at hkey
    exact ⟨a, by simp, r, mem_of_find?_eq_some hfind, rfl, hkey.2⟩
  · obtain ⟨a', ha', r', hr', hm⟩ := ih h
    exact ⟨a', mem_cons_of_mem a ha', r', mem_of_mem_eraseP hr', hm⟩

/-- If nothing is found, no two events are equal with equal bytes. -/
lemma ne_of_matchByWire_eq_nil {as rs : List Keyed} (h : matchByWire pb as rs = []) :
    ∀ a ∈ as, ∀ r ∈ rs, r.wire = a.wire → eventEqual pb a.event r.event ≠ true := by
  induction as with
  | nil =>
    intro a ha
    cases ha
  | cons a as ih =>
  unfold matchByWire at h
  split at h
  · next hfind =>
    intro a' ha' r hr hwire hevent
    rcases mem_cons.mp ha' with rfl | ha'
    · exact find?_eq_none.mp hfind r hr (by simp [hwire, hevent])
    · exact ih h a' ha' r hr hwire hevent
  · cases h

variable {accepted returned : List StreamEvent}

lemma samePosition_eq {i : Nat} {a r : StreamEvent} (ha : accepted[i]? = some a)
    (hr : returned[i]? = some r) : samePosition pb accepted returned i = eventEqual pb a r := by
  unfold samePosition
  rw [ha, hr]

/-- No event stands at a place of the one side and at another place of the other
with neither place reserved. -/
def Unmoved (pb : Protobuf) (accepted returned : List StreamEvent) : Prop :=
  ∀ (i j : Nat) ev, accepted[i]? = some ev → returned[j]? = some ev →
    samePosition pb accepted returned i = true ∨ samePosition pb accepted returned j = true

/-- Matches without a move: only the events at their own place are reserved. -/
lemma exactEventMatches_unmoved {found : List (Nat × Nat)}
    (h : exactEventMatches pb accepted returned = .ok found)
    (hunmoved : (found.any fun m => m.1 != m.2) = false) :
    found = ((accepted.zipIdx.filter fun ev => samePosition pb accepted returned ev.2).map
        fun ev => (ev.2, ev.2)) ∧ Unmoved pb accepted returned := by
  obtain ⟨keyedReturned, hret, keyedAccepted, hacc, h⟩ := bind₂_eq_ok.mp h
  cases h
  have hkeysA := mem_unreserved hacc
  have hkeysR := mem_unreserved hret
  have hnil : matchByWire pb keyedAccepted keyedReturned = [] := by
    rw [eq_nil_iff_forall_not_mem]
    intro m hm
    obtain ⟨a, ha, r, hr, rfl, hevent⟩ := exists_of_mem_matchByWire hm
    have hsame : a.position = r.position := by
      have hall := any_eq_false.mp hunmoved (a.position, r.position) (by simp [hm])
      simpa using hall
    -- a pair at one place would have been reserved before
    obtain ⟨hplace, hfree, -⟩ := hkeysA.1 a ha
    rw [samePosition_eq hplace (hsame ▸ (hkeysR.1 r hr).1), hevent] at hfree
    cases hfree
  refine ⟨by rw [hnil, append_nil], ?_⟩
  intro i j ev hi hj
  by_contra hfree
  rw [not_or, Bool.not_eq_true, Bool.not_eq_true] at hfree
  obtain ⟨a, ha, rfl⟩ := hkeysA.2 i ev hi hfree.1
  obtain ⟨r, hr, hevent⟩ := hkeysR.2 j a.event hj hfree.2
  have hwireA := (hkeysA.1 a ha).2.2
  have hwireR := (hkeysR.1 r hr).2.2
  rw [hevent, hwireA] at hwireR
  exact ne_of_matchByWire_eq_nil hnil a ha r hr (Except.ok.inj hwireR).symm
    (hevent ▸ eventEqual_self _)

lemma forall₂_of_changedEvents {as rs : List (StreamEvent × Nat)} (hlen : as.length = rs.length)
    (h : changedEvents reg grantNothing pb path as rs = .ok ()) :
    Forall₂ (fun a r => ∃ path, eventDiff reg grantNothing pb a.1 r.1 path = .ok ()) as rs := by
  induction as generalizing rs with
  | nil =>
    cases rs with
    | nil => exact .nil
    | cons r rs => cases hlen
  | cons a as ih =>
  cases rs with
  | nil => cases hlen
  | cons r rs =>
    obtain ⟨_, hdiff, hrest⟩ := bind_eq_ok.mp h
    exact .cons ⟨_, hdiff⟩ (ih (Nat.succ.inj hlen) hrest)

/-- **A whole stream without grants.**  Outside the tokens every event is
unchanged, and no event that left its place is found anywhere else. -/
theorem verifyStreamPolicy_ungranted (hcovers : CoversStream reg) (harms : ChargesArms reg)
    (h : verifyStreamPolicy reg pb accepted returned (some grantNothing) = .ok ()) :
    Forall₂ (Kept pb) accepted returned ∧ Unmoved pb accepted returned := by
  have h : eventsDiff reg grantNothing pb accepted returned "events" = .ok () := h
  unfold eventsDiff at h
  dsimp only at h
  split at h
  · obtain ⟨_, hrefused, -⟩ := bind_eq_ok.mp h
    exact absurd hrefused (require_grantNothing _ _)
  next hne =>
  have hlen : accepted.length = returned.length := not_not.mp hne
  split at h
  · cases h
  next found hfound =>
  split at h
  · obtain ⟨_, hrefused, -⟩ := bind_eq_ok.mp h
    exact absurd hrefused (require_grantNothing _ _)
  next hmoved =>
  obtain ⟨hdiag, hunmoved⟩ := exactEventMatches_unmoved hfound (by simpa using hmoved)
  refine ⟨?_, hunmoved⟩
  -- both sides leave out the same places
  have hsnd : found.map Prod.snd = found.map Prod.fst := by
    rw [hdiag, map_map, map_map]
    rfl
  rw [hsnd] at h
  have hlength := length_filter_zipIdx (p := fun i => !(found.map Prod.fst).contains i) hlen
  have hpaired := (forall₂_of_changedEvents hlength h).imp
    fun _ _ hdiff => hdiff.elim fun _ hpath => kept_of_eventDiff hcovers harms hpath
  have hchanged := of_forall₂_filter_zipIdx (R := Kept pb)
    (p := fun i => !(found.map Prod.fst).contains i) hlen hpaired
  refine forall₂_of_positions hlen ?_
  intro n a r ha hr
  by_cases hfixed : (found.map Prod.fst).contains n = true
  · rw [hdiag, map_map] at hfixed
    obtain ⟨⟨ev, m⟩, hev, rfl⟩ := mem_map.mp (contains_iff_mem.mp hfixed)
    have hequal : eventEqual pb a r = true :=
      (samePosition_eq (i := m) ha hr).symm.trans (mem_filter.mp hev).2
    exact ⟨eventEqual_blankEvent hequal, .inl hequal⟩
  · exact hchanged n a r ha hr (by simpa using hfixed)

end ToranaEdge.Policy
