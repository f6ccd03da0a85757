import ToranaEdge.Request.Sections

/-! # The host around a request hook

What the host keeps and injects when it calls a plugin's
`run_before_request`: the verdicts plugins record about a request, and the
metadata that is projected into a request for the duration of one call.

JSON, protobuf framing and header canonicalisation come from libraries; they
are fields of `Host`, and nothing is assumed of them. -/

namespace ToranaEdge

/-! ## Verdicts -/

structure BlockVerdict where
  plugin : String
  status : Int32
  code : String
  message : String
  deriving DecidableEq

/-- A canned completion, kept as its wire bytes. -/
structure RespondVerdict where
  plugin : String
  response : Bytes
  deriving DecidableEq

structure RouteVerdict where
  plugin : String
  provider : String
  model : String
  effort : Int32
  deriving DecidableEq

structure IdentityVerdict where
  plugin : String
  identity : String
  deriving DecidableEq

/-- The verdicts of one request, each attributed to its plugin. -/
structure RequestVerdicts where
  block : Option BlockVerdict := none
  respond : Option RespondVerdict := none
  route : Option RouteVerdict := none
  identity : Option IdentityVerdict := none
  deriving DecidableEq

/-- A host call by which a plugin records a verdict. -/
inductive VerdictCall where
  | block (status : Int32) (code message : String)
  | respond (response : Bytes)
  | route (provider model : String) (effort : Int32)
  | identity (identity : String)
  deriving DecidableEq

def VerdictCall.isBlock : VerdictCall → Bool
  | .block .. => true
  | _ => false

namespace RequestVerdicts

/-- `setBlock`, `setRespond`, `setRoute`, `setIdentity`: the first block and the
first response stand, a later route or identity replaces an earlier one. -/
def record (plugin : String) (v : RequestVerdicts) : VerdictCall → RequestVerdicts
  | .block status code message =>
    if v.block.isSome then v else { v with block := some ⟨plugin, status, code, message⟩ }
  | .respond response =>
    if v.respond.isSome then v else { v with respond := some ⟨plugin, response⟩ }
  | .route provider model effort => { v with route := some ⟨plugin, provider, model, effort⟩ }
  | .identity identity => { v with identity := some ⟨plugin, identity⟩ }

def recordAll (plugin : String) (v : RequestVerdicts) (calls : List VerdictCall) :
    RequestVerdicts :=
  calls.foldl (record plugin) v

/-- Drop the verdicts of a plugin that trapped, its block excepted. -/
def discardFrom (v : RequestVerdicts) (plugin : String) : RequestVerdicts :=
  { v with
    respond := v.respond.filter fun r => r.plugin != plugin
    route := v.route.filter fun r => r.plugin != plugin
    identity := v.identity.filter fun i => i.plugin != plugin }

def blocked (v : RequestVerdicts) : Bool := v.block.isSome

/-- A recorded block stands. -/
lemma blocked_record {plugin : String} {v : RequestVerdicts} {call : VerdictCall}
    (h : v.blocked = true ∨ call.isBlock = true) : (record plugin v call).blocked = true := by
  cases call with
  | block status code message =>
    by_cases hv : v.block.isSome = true
    · simp [record, hv, blocked]
    · simp [record, hv, blocked]
  | respond response =>
    have hv : v.blocked = true := by simpa [VerdictCall.isBlock] using h
    by_cases hr : v.respond.isSome = true
    · simpa [record, hr] using hv
    · rw [record, if_neg hr]
      exact hv
  | route provider model effort | identity identity =>
    have hv : v.blocked = true := by simpa [VerdictCall.isBlock] using h
    exact hv

lemma blocked_recordAll {plugin : String} {v : RequestVerdicts} {calls : List VerdictCall}
    (h : v.blocked = true ∨ calls.any VerdictCall.isBlock = true) :
    (recordAll plugin v calls).blocked = true := by
  induction calls generalizing v with
  | nil =>
    have hv : v.blocked = true := by simpa using h
    exact hv
  | cons call calls ih =>
  apply ih
  rcases h with h | h
  · exact .inl (blocked_record (.inl h))
  rw [List.any_cons, Bool.or_eq_true] at h
  rcases h with h | h
  · exact .inl (blocked_record (.inr h))
  · exact .inr h

end RequestVerdicts

/-! ## Parameters of the host -/

/-- A decoded metadata object: raw JSON values by key. -/
abbrev MetaMap : Type := List (String × Bytes)

/-- `meta[key] = value`. -/
def MetaMap.set (m : MetaMap) (key : String) (value : Bytes) : MetaMap :=
  (m.filter fun e => e.1 != key) ++ [(key, value)]

/-- Incoming headers: each key with its values. -/
abbrev HeaderMap : Type := List (String × List String)

/-- What the host calls but this repository does not contain, or binds at
construction.  `Topology` are the host-only facts of a request and `Engine`
is the host's own request type. -/
structure Host (Topology Engine : Type) where
  ext : Externals
  /-- `json.Unmarshal` into a map; `null` gives the empty map. -/
  decodeMeta : Bytes → Option MetaMap
  /-- `json.Marshal` of a metadata map. -/
  encodeMeta : MetaMap → Option Bytes
  /-- `json.Marshal` of the projected headers. -/
  encodeHeaders : List (String × String) → Option Bytes
  /-- `http.CanonicalHeaderKey`. -/
  canonicalHeaderKey : String → String
  /-- `encodeHookInput`: validate and marshal the envelope of a request id and a
      request. -/
  encodeHookInput : UInt64 → ChatRequest → Except String Bytes
  /-- `DecodeHookResult` and `ValidateFor`: no action, or an action with the
      replacement it carries. -/
  decodeAction : Bytes → Except String (Option (Option ChatRequest))
  /-- `SuggestionOutcomesFunc`, by plugin name. -/
  suggestionOutcomes : Option (String → Except String (Option Bytes))
  /-- Provider-specific validation of a replacement. -/
  candidateValidator : Option (Topology → ChatRequest → ChatRequest → Except String Unit)
  /-- `proto.Marshal` of a request, for the mutation observer. -/
  marshalRequest : ChatRequest → Except String Bytes
  /-- `pbconv.ToPBChatRequestChecked`. -/
  toPB : Engine → Except String ChatRequest
  /-- `pbconv.FromPBChatRequest`. -/
  fromPB : ChatRequest → Except String Engine
  topology : Engine → Topology
  withTopology : Topology → Engine → Engine

/-! ## Metadata projected for one call -/

def requestHeadersKey : String := "_request_headers"

def suggestionsKey : String := "_suggestions"

def credentialHeaders : List String :=
  ["Authorization", "X-Api-Key", "X-Torana-User", "X-Torana-Team", "X-Torana-Tenant"]

/-- A request with other metadata bytes. -/
def ChatRequest.withMeta (req : ChatRequest) (bytes : Bytes) : ChatRequest :=
  { req with toranaMetaJson := bytes }

@[simp] lemma ChatRequest.withMeta_self (req : ChatRequest) :
    req.withMeta req.toranaMetaJson = req := rfl

section projection

variable {Topology Engine : Type} (host : Host Topology Engine)

/-- Values, found, ambiguous: two keys for one canonical name are no match. -/
def resolveHeader (raw : HeaderMap) (canonical : String) : List String × Bool × Bool :=
  match raw.filter fun h => host.canonicalHeaderKey h.1 == canonical with
  | [] => ([], false, false)
  | [h] => (h.2, true, false)
  | _ => ([], false, true)

/-- The first value of each credential header that is there, unambiguous and not
empty. -/
def projectChatHeaders (raw : HeaderMap) : List (String × String) :=
  credentialHeaders.filterMap fun name =>
    match resolveHeader host raw name with
    | (value :: _, true, false) => if value == "" then none else some (name, value)
    | _ => none

variable (req : ChatRequest)

/-- The metadata map of a request; malformed metadata has none. -/
def readMeta : Option MetaMap :=
  if req.toranaMetaJson = [] then some [] else host.decodeMeta req.toranaMetaJson

/-- Write one key of the metadata; the request stays as it is when the metadata
cannot be read or written. -/
def injectMeta (key : String) (value : Bytes) : ChatRequest :=
  match (readMeta host req).bind fun m => host.encodeMeta (m.set key value) with
  | some bytes => req.withMeta bytes
  | none => req

def injectRequestHeaders (headers : List (String × String)) : ChatRequest :=
  match host.encodeHeaders headers with
  | some value => injectMeta host req requestHeadersKey value
  | none => req

def injectSuggestionOutcomes (outcomes : Bytes) : ChatRequest :=
  injectMeta host req suggestionsKey outcomes

def restoreRequestHeaders (saved : Bytes) : ChatRequest :=
  req.withMeta saved

/-- Injection touches the metadata only. -/
lemma injectMeta_withMeta (key : String) (value saved : Bytes) :
    (injectMeta host req key value).withMeta saved = req.withMeta saved := by
  unfold injectMeta
  split <;> rfl

lemma injectRequestHeaders_withMeta (headers : List (String × String))
    (saved : Bytes) : (injectRequestHeaders host req headers).withMeta saved =
      req.withMeta saved := by
  unfold injectRequestHeaders
  split
  · exact injectMeta_withMeta host req requestHeadersKey _ saved
  · rfl

end projection

end ToranaEdge
