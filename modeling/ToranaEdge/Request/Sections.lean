import ToranaEdge.Request.Signatures

/-! # Write grants on a request

`verifyRequestMutation` decides whether a plugin's replacement request is
within its grants.  Host facts and signature provenance are checked without
regard to any grant; then each grantable section of the two requests is
reduced to a SHA-256 digest and every digest that moved needs its grant.

What a section hashes is kept apart from the hashing: `…Preimage` is the
byte string written to the hasher.  A protobuf list never holds a nil
element here, so the source's nil checks have no counterpart. -/

namespace ToranaEdge

open Framing

/-! ## The role view of a message -/

/-- What every tool-result text is replaced with where only its place counts. -/
def roleTextPlaceholder : String := "\x00torana-role-view-text"

/-- `GetCacheBreakpoint`, by its marker. -/
def RequestBlock.cacheMarker : RequestBlock → Option Bytes
  | { kind := some (.cacheBreakpoint b), .. } => some b.markerJson
  | _ => none

/-- `GetToolResult`. -/
def RequestBlock.toolResult : RequestBlock → Option RequestToolResultBlock
  | { kind := some (.toolResult b), .. } => some b
  | _ => none

/-- `GetCacheBreakpoint` of a nested element, by its marker. -/
def ToolResultContentBlock.cacheMarker : ToolResultContentBlock → Option Bytes
  | { kind := some (.cacheBreakpoint b), .. } => some b.markerJson
  | _ => none

/-- `GetText` of a nested element. -/
def ToolResultContentBlock.textValue : ToolResultContentBlock → Option String
  | { kind := some (.text b), .. } => some b.text
  | _ => none

/-- Provider-visible content collapses to one placeholder; content made of cache
markers alone is no content. -/
def roleNestedContent (content : List ToolResultContentBlock) : List ToolResultContentBlock :=
  if content.all fun c => c.cacheMarker.isSome then []
  else [{ kind := some (.text { text := roleTextPlaceholder }) }]

/-- A block's kind with its token cleared and its tool-result content collapsed. -/
def roleViewKind : RequestBlockKind → RequestBlockKind
  | .text b => .text { b with signature := "" }
  | .thinking b => .thinking { b with signature := "" }
  | .toolUse b => .toolUse { b with signature := "" }
  | .unknown b => .unknown { b with signature := "" }
  | .toolResult b =>
    .toolResult { b with signature := "", isError := none, content := roleNestedContent b.content }
  | kind => kind

/-- A block under the role view; cache markers and trailing carriers vanish. -/
def roleViewBlock (b : RequestBlock) : Option RequestBlock :=
  if b.cacheMarker.isSome || (trailingBlock b).isSome then none
  else some { b with kind := b.kind.map roleViewKind }

def roleViewMessage (m : Message) : Message :=
  { role := m.role, blocks := m.blocks.filterMap roleViewBlock }

/-! ## What each section hashes -/

variable (ext : Externals)

def messagePreimage (m : Message) : Except String Bytes :=
  match ext.requestBlocksFingerprint (roleViewMessage m) with
  | .error e => .error s!"writegrant: role-section body fingerprint: {e}"
  | .ok s => .ok (field 1 (m.role != "") (utf8 m.role) ++ framed (utf8 s))

def fingerprintMessage (m : Message) : Except String Digest :=
  (messagePreimage ext m).map ext.sha256

/-- What one message adds to the hasher of its role: its absolute index and its
digest. -/
structure RoleEntry where
  role : String
  index : Nat
  digest : Digest

def RoleEntry.encode (e : RoleEntry) : Bytes :=
  framedNat e.index ++ framed e.digest.val

def roleEntry (m : Message × Nat) : Except String RoleEntry :=
  (fingerprintMessage ext m.1).map fun d => { role := m.1.role, index := m.2, digest := d }

variable (req : ChatRequest)

def roleEntries : Except String (List RoleEntry) :=
  req.messages.zipIdx.mapM (roleEntry ext)

/-- The string fed to the hasher of one role. -/
def rolePreimage (entries : List RoleEntry) (role : String) : Bytes :=
  (entries.filter fun e => e.role == role).flatMap RoleEntry.encode

/-- A cache breakpoint with the place it was found at. -/
inductive CacheCarrier where
  | block (message block : Nat) (marker : Bytes)
  | nested (message block item : Nat) (marker : Bytes)
  | tool (index : Nat) (marker : Bytes)
  deriving DecidableEq

def CacheCarrier.encode : CacheCarrier → Bytes
  | .block i bi marker => framedNat i ++ (framedNat bi ++ field 1 true marker)
  | .nested i bi ci marker =>
    framedNat i ++ (framedNat bi ++ (framedNat ci ++ field 2 true marker))
  | .tool i marker => framedNat i ++ field 3 true marker

/-- The carriers of one block. -/
def blockCarriers (i bi : Nat) (b : RequestBlock) : List CacheCarrier :=
  match b.cacheMarker with
  | some marker => [.block i bi marker]
  | none =>
    match b.toolResult with
    | some result =>
      result.content.zipIdx.filterMap fun c => c.1.cacheMarker.map (.nested i bi c.2)
    | none => []

/-- A tool's carrier; proto3 bytes have no presence, so empty is absent. -/
def toolCarrier (t : ToolDef × Nat) : Option CacheCarrier :=
  if t.1.cacheControlJson = [] then none else some (.tool t.2 t.1.cacheControlJson)

def cacheCarriers : List CacheCarrier :=
  (req.messages.zipIdx.flatMap fun m =>
    m.1.blocks.zipIdx.flatMap fun b => blockCarriers m.2 b.2 b.1) ++
  req.tools.zipIdx.filterMap toolCarrier

def cacheControlPreimage : Bytes :=
  (cacheCarriers req).flatMap CacheCarrier.encode

/-- A tool-result text with its absolute place. -/
structure TextPlace where
  message : Nat
  block : Nat
  item : Nat
  text : String
  deriving DecidableEq

def TextPlace.encode (p : TextPlace) : Bytes :=
  framedNat p.message ++ (framedNat p.block ++ (framedNat p.item ++ field 1 true (utf8 p.text)))

def blockTexts (i bi : Nat) (b : RequestBlock) : List TextPlace :=
  match b.toolResult with
  | some result => result.content.zipIdx.filterMap fun c => c.1.textValue.map (⟨i, bi, c.2, ·⟩)
  | none => []

def toolTexts : List TextPlace :=
  req.messages.zipIdx.flatMap fun m =>
    m.1.blocks.zipIdx.flatMap fun b => blockTexts m.2 b.2 b.1

def toolResultsPreimage : Bytes :=
  (toolTexts req).flatMap TextPlace.encode

/-- The tool results of a request, in encounter order. -/
def ChatRequest.toolResults : List RequestToolResultBlock :=
  req.blocks.filterMap RequestBlock.toolResult

/-- A nested element with its text value masked. -/
def maskText : ToolResultContentBlock → ToolResultContentBlock
  | { kind := some (.text b), unknown } =>
    { kind := some (.text { b with text := roleTextPlaceholder }), unknown }
  | c => c

/-- Provider-visible elements with text masked; cache markers are left out. -/
def maskedContent (content : List ToolResultContentBlock) : List ToolResultContentBlock :=
  content.filterMap fun c => if c.cacheMarker.isSome then none else some (maskText c)

def maskedDigest (result : RequestToolResultBlock) : Except String Digest :=
  match ext.toolResultContentFingerprint (maskedContent result.content) with
  | .error e => .error s!"writegrant: tool-result content fingerprint: {e}"
  | .ok d => .ok d

/-- Each result's masked content, pinned to its ordinal. -/
def toolContentPreimage : Except String Bytes :=
  (req.toolResults.mapM (maskedDigest ext)).map fun digests =>
    digests.zipIdx.flatMap fun d => framedNat d.2 ++ framed d.1.val

def boolByte (b : Bool) : Bytes := [if b then 1 else 0]

def toolErrorsPreimage : Bytes :=
  req.toolResults.flatMap fun result => optField 1 (result.isError.map boolByte)

/-- A tool definition; its cache marker belongs to the cache section. -/
def toolRecord (t : ToolDef) : Bytes :=
  framed (utf8 t.name) ++ (framed (utf8 t.description) ++ (framed t.parametersJson ++
    (framed (boolByte t.strict) ++ (framed t.invocationKind.sprint ++ (framed t.inputFormatJson ++
      counted (fun segment => framed (utf8 segment)) t.namespacePath)))))

def toolsPreimage : Bytes :=
  counted toolRecord req.tools

def modelPreimage : Bytes :=
  framed (utf8 req.model)

def encodedOutputFormat : Except String (Option Bytes) :=
  match req.outputFormat with
  | none => .ok none
  | some f => (ext.marshalOutputFormat f).map some

/-- Stop sequences come before their count, after a bare tag. -/
def stopFrames (stops : List String) (format : Option Bytes) : Bytes :=
  (stops.flatMap fun s => framed (utf8 s)) ++ (framedNat stops.length ++ optField 8 format)

def paramsPreimage : Except String Bytes :=
  (encodedOutputFormat ext req).map fun format =>
    optField 1 (req.maxTokens.map fun n => le64 n.toUInt32.toNat) ++
      (optField 2 (req.temperature.map fun x => le64 x.toNat) ++
        (optField 3 (req.topP.map fun x => le64 x.toNat) ++ (field 4 true (boolByte req.stream) ++
            (field 5 true req.providerExtensionsJson ++ (field 6 true req.safetySettingsJson ++
                (7 :: stopFrames req.stopSequences format))))))

/-! ## Section digests -/

/-- The digests of one request; a role without messages has no entry. -/
structure RequestSections where
  messages : List (String × Digest)
  tools : Digest
  model : Digest
  params : Digest
  cacheControl : Digest
  toolResults : Digest
  toolContent : Digest
  toolErrors : Digest

/-- A map lookup: the zero array for a role that is not there. -/
def RequestSections.message (s : RequestSections) (role : String) : Digest :=
  (s.messages.lookup role).getD zeroDigest

/-- One digest per role that occurs. -/
def roleSums (entries : List RoleEntry) : List (String × Digest) :=
  (entries.map RoleEntry.role).eraseDups.map fun role =>
    (role, ext.sha256 (rolePreimage entries role))

def fingerprintRequestSections :
    Except String RequestSections := do
  let entries ← roleEntries ext req
  let content ← toolContentPreimage ext req
  let params ← paramsPreimage ext req
  .ok
    { messages := roleSums ext entries
      tools := ext.sha256 (toolsPreimage req)
      model := ext.sha256 (modelPreimage req)
      params := ext.sha256 params
      cacheControl := ext.sha256 (cacheControlPreimage req)
      toolResults := ext.sha256 (toolResultsPreimage req)
      toolContent := ext.sha256 content
      toolErrors := ext.sha256 (toolErrorsPreimage req) }

variable (acc res : RequestSections)

/-- The roles whose digest differs, sorted. -/
def changedRoles : List String :=
  (((res.messages ++ acc.messages).map Prod.fst).eraseDups.filter fun role =>
    acc.message role != res.message role).mergeSort

/-- The sections other than messages: whether it changed, its grant, and the
name an error gives it. -/
def otherSections : List (Bool × String × String) :=
  [ (acc.tools != res.tools, "ir.tools.write", "tools"),
    (acc.cacheControl != res.cacheControl, "ir.cache_control.write", "cache_control"),
    (acc.toolResults != res.toolResults, "ir.tool_results.write", "tool result text"),
    (acc.toolContent != res.toolContent, "ir.tool_result_content.write",
      "tool result content topology"),
    (acc.toolErrors != res.toolErrors, "ir.tool_result_errors.write", "tool result error status"),
    (acc.model != res.model, "ir.model.write", "model"),
    (acc.params != res.params, "ir.params.write", "params") ]

/-- Every changed section with its grant, in the order of the checks. -/
def changedSections : List (String × String) :=
  ((changedRoles acc res).map fun role => (ext.messageWriteSection role, s!"messages.{role}")) ++
    ((otherSections acc res).filter Prod.fst).map Prod.snd

variable (accepted out : ChatRequest)

def verifyGrantedSections (canWrite : String → Bool) : Except String Unit := do
  let acc ← fingerprintRequestSections ext accepted
  let res ← fingerprintRequestSections ext out
  match (changedSections ext acc res).find? fun s => !canWrite s.1 with
  | some (grant, changed) => .error s!"plugin changed {changed} without {grant}"
  | none => .ok ()

/-! ## Host facts -/

def ToolResultContentBlock.unknownSlots (path : String) (c : ToolResultContentBlock) :
    List (String × Bytes) :=
  (path, c.unknown) ::
    match c.kind with
    | none => []
    | some (.text b) => [(s!"{path}.text", b.unknown)]
    | some (.unknown b) => [(s!"{path}.unknown", b.unknown)]
    | some (.cacheBreakpoint b) => [(s!"{path}.cache_breakpoint", b.unknown)]

def RequestBlockKind.unknownSlots (path : String) : RequestBlockKind → List (String × Bytes)
  | .text b => [(s!"{path}.text", b.unknown)]
  | .thinking b => [(s!"{path}.thinking", b.unknown)]
  | .redactedThinking b => [(s!"{path}.redacted_thinking", b.unknown)]
  | .toolUse b => [(s!"{path}.tool_use", b.unknown)]
  | .toolResult b =>
    (s!"{path}.tool_result", b.unknown) ::
      b.content.zipIdx.flatMap fun c => c.1.unknownSlots s!"{path}.tool_result.content[{c.2}]"
  | .cacheBreakpoint b => [(s!"{path}.cache_breakpoint", b.unknown)]
  | .unknown b => [(s!"{path}.unknown", b.unknown)]
  | .trailingSignature b => [(s!"{path}.trailing_signature", b.unknown)]
  | .refusal b => [(s!"{path}.refusal", b.unknown)]

/-- Every place of a message tree that can hold unknown bytes, parents first. -/
def Message.unknownSlots (path : String) (m : Message) : List (String × Bytes) :=
  (path, m.unknown) ::
    m.blocks.zipIdx.flatMap fun b =>
      (s!"{path}.blocks[{b.2}]", b.1.unknown) ::
        (b.1.kind.toList.flatMap (RequestBlockKind.unknownSlots s!"{path}.blocks[{b.2}]"))

def ChatRequest.unknownSlots : List (String × Bytes) :=
  ("request", req.unknown) ::
    ((req.messages.zipIdx.flatMap fun m => m.1.unknownSlots s!"messages[{m.2}]") ++
      req.tools.zipIdx.map fun t => (s!"tools[{t.2}]", t.1.unknown))

/-- Unknown protobuf bytes are refused in the returned request only. -/
def verifyUnknownFields : Except String Unit :=
  match out.unknownSlots.find? fun slot => slot.2 != [] with
  | some (path, _) => .error s!"plugin wrote unknown fields in {path}"
  | none => .ok ()

/-- The namespace paths that are not empty, in order, are the same. -/
def sameNamespacedToolTopology (before after : List ToolDef) : Bool :=
  (before.map ToolDef.namespacePath).filter (· != []) ==
    (after.map ToolDef.namespacePath).filter (· != [])

def verifyUnconditionalInvariants :
    Except String Unit := do
  verifyUnknownFields out
  if accepted.toranaMetaJson != out.toranaMetaJson then
    .error "plugin changed host-owned torana_meta_json"
  else if !sameNamespacedToolTopology accepted.tools out.tools then
    .error "plugin changed host-owned tool namespace topology"
  else verifyRequestSignatures ext accepted out

def verifyRequestMutation (canWrite : String → Bool) : Except String Unit := do
  verifyUnconditionalInvariants ext accepted out
  verifyGrantedSections ext accepted out canWrite

/-- What a plugin holding every request grant is held to. -/
def verifyFastPath : Except String Unit :=
  verifyUnconditionalInvariants ext accepted out

end ToranaEdge
