import ToranaEdge.Engine.Types
import ToranaEdge.Pipeline.BeforeRequest
import ToranaEdge.Response.Replacement

/-! # The after-response chain

`RunAfterResponse` shows the response to one plugin after another.  On a
mutable path an accepted replacement becomes the response the next plugin is
shown; a refused one is skipped or ends the chain with an error, as the
plugin's failure mode says.  What a run returns is therefore the end of a
chain of accepted replacements. -/

namespace ToranaEdge

/-! ## The engine's response -/

namespace Engine

structure ResponseToolCall where
  id : String
  name : String
  argumentsJson : Bytes
  signature : String
  deriving DecidableEq, Repr

/-- A pointer sum: text is taken first. -/
structure ResponseBlock where
  text : Option String := none
  toolCall : Option ResponseToolCall := none
  deriving DecidableEq, Repr

structure ChatResponse where
  model : String
  /-- Host routing identity. -/
  provider : String
  completedAtUnixMs : Int64
  id : String
  message : Option (List ResponseBlock)
  finishReason : String
  usage : Option StreamUsage
  upstreamStatus : Int
  durationMs : Int64
  providerExtensions : Members
  toranaMetaJson : Bytes

end Engine

/-! ## Across the plugin ABI -/

/-- What the chain takes from elsewhere. -/
structure ResponseHost where
  classifier : ResponseClassifier
  /-- `json.Marshal` of the extensions; nothing where it fails. -/
  marshalExtensions : Members → Bytes
  /-- `json.Unmarshal` of the extensions; nothing where it fails. -/
  unmarshalExtensions : Bytes → Members
  /-- `encodeHookInput` of a request id, a response and whether it is mutable. -/
  encodeHookInput : UInt64 → ChatResponse → Bool → Except String Bytes
  /-- `DecodeHookResult` and `ValidateFor`: no action, or an action with the
      replacement it carries. -/
  decodeAction : Bytes → Except String (Option (Option ChatResponse))

/-- A block with no arm is left out. -/
def toPBResponseBlock (b : Engine.ResponseBlock) : Option ResponseBlock :=
  match b.text, b.toolCall with
  | some text, _ => some { kind := some (.text { text }) }
  | none, some call =>
    some { kind := some (.toolCall
      { id := call.id, name := call.name, argumentsJson := call.argumentsJson
        signature := call.signature }) }
  | none, none => none

def fromPBResponseBlock (b : ResponseBlock) : Option Engine.ResponseBlock :=
  match b.kind with
  | some (.text block) => some { text := some block.text }
  | some (.toolCall call) =>
    some { toolCall := some ⟨call.id, call.name, call.argumentsJson, call.signature⟩ }
  | none => none

/-- Counts are truncated to 32 bits. -/
def toPBUsage (u : Engine.StreamUsage) : Usage :=
  { inputTokens := Int32.ofInt u.inputTokens
    outputTokens := Int32.ofInt u.outputTokens
    cacheReadTokens := Int32.ofInt u.cacheReadTokens
    cacheWriteTokens := Int32.ofInt u.cacheWriteTokens }

def fromPBUsage (u : Usage) : Engine.StreamUsage :=
  { inputTokens := u.inputTokens.toInt
    outputTokens := u.outputTokens.toInt
    cacheReadTokens := u.cacheReadTokens.toInt
    cacheWriteTokens := u.cacheWriteTokens.toInt }

section chain

variable (host : ResponseHost) {reqID : UInt64} {mutable : Bool}

def toPBChatResponse (r : Engine.ChatResponse) : ChatResponse :=
  { model := r.model
    provider := r.provider
    completedAtUnixMs := r.completedAtUnixMs
    id := r.id
    finishReason := r.finishReason
    upstreamStatus := Int32.ofInt r.upstreamStatus
    durationMs := r.durationMs
    toranaMetaJson := r.toranaMetaJson
    message := r.message.map fun blocks => { blocks := blocks.filterMap toPBResponseBlock }
    usage := r.usage.map toPBUsage
    providerExtensionsJson :=
      if r.providerExtensions.entries = [] then [] else host.marshalExtensions r.providerExtensions }

def fromPBChatResponse (r : ChatResponse) : Engine.ChatResponse :=
  { model := r.model
    provider := r.provider
    completedAtUnixMs := r.completedAtUnixMs
    id := r.id
    finishReason := r.finishReason
    upstreamStatus := r.upstreamStatus.toInt
    durationMs := r.durationMs
    toranaMetaJson := r.toranaMetaJson
    message := r.message.map fun m => m.blocks.filterMap fromPBResponseBlock
    usage := r.usage.map fromPBUsage
    providerExtensions :=
      if r.providerExtensionsJson = [] then ∅ else host.unmarshalExtensions r.providerExtensionsJson }

/-! ## The chain -/

/-- The response as the chain has it, and whether a plugin replaced it. -/
structure AfterState where
  current : ChatResponse
  modified : Bool := false

/-- A failure skips the plugin, or ends the chain in block mode. -/
def afterFailure (lp : LoadedPlugin) (s : AfterState) (message : String) :
    Except String AfterState :=
  if lp.failureMode = "block" then .error message else .ok s

/-- A returned replacement: discarded on an immutable path, refused or accepted. -/
def settleResponse (mutable : Bool) (lp : LoadedPlugin) (s : AfterState)
    (replacement : ChatResponse) : Except String AfterState :=
  if mutable then
    match acceptReplacement host.classifier.toSignatureClassifier s.current replacement with
    | .error e =>
      afterFailure lp s s!"plugin {lp.name} returned an invalid response replacement: {e}"
    | .ok next => .ok { current := next, modified := true }
  else .ok s

/-- Zero bytes is the one encoding of pass-through. -/
def decodeResponseResult (raw : Bytes) : Except String (Option (Option ChatResponse)) :=
  if raw = [] then .ok none else host.decodeAction raw

def settleAfterResult (mutable : Bool) (lp : LoadedPlugin) (s : AfterState) (raw : Bytes) :
    Except String AfterState :=
  match decodeResponseResult host raw with
  | .error e => afterFailure lp s s!"plugin {lp.name} returned an invalid result: {e}"
  | .ok (some (some replacement)) => settleResponse host mutable lp s replacement
  | .ok _ => .ok s

/-- One plugin of the chain. -/
def runAfterResponsePlugin (reqID : UInt64) (mutable : Bool) (s : AfterState)
    (lp : LoadedPlugin) : Except String AfterState :=
  match host.encodeHookInput reqID s.current mutable with
  | .error e => .error e
  | .ok input =>
    match (lp.call input).2 with
    | .error e => afterFailure lp s s!"plugin {lp.name} blocked response after failure: {e}"
    | .ok raw => settleAfterResult host mutable lp s raw

/-- `RunAfterResponse` on a response that is there: what it returns, and its
error. -/
def runAfterResponse (reqID : UInt64) (plugins : List LoadedPlugin) (resp : Engine.ChatResponse)
    (mutable : Bool) : Engine.ChatResponse × Option String :=
  match plugins.foldlM (runAfterResponsePlugin host reqID mutable)
      { current := toPBChatResponse host resp } with
  | .error e => (resp, some e)
  | .ok s => (if s.modified then fromPBChatResponse host s.current else resp, none)

/-! ## A run is a chain of accepted replacements -/

/-- What one plugin does to the chain: nothing, or one accepted replacement. -/
lemma runAfterResponsePlugin_ok {host : ResponseHost} {s s' : AfterState} {lp : LoadedPlugin}
    (h : runAfterResponsePlugin host reqID mutable s lp = .ok s') :
    s' = s ∨ mutable = true ∧ ∃ replacement,
      acceptReplacement host.classifier.toSignatureClassifier s.current replacement =
        .ok s'.current ∧ s'.modified = true := by
  have hfailure : ∀ message, afterFailure lp s message = .ok s' → s' = s := by
    intro message hm
    unfold afterFailure at hm
    split at hm <;> cases hm
    rfl
  unfold runAfterResponsePlugin at h
  split at h
  · cases h
  split at h
  · exact .inl (hfailure _ h)
  unfold settleAfterResult at h
  split at h
  · exact .inl (hfailure _ h)
  · next replacement _ =>
    unfold settleResponse at h
    split at h
    next hmutable =>
      split at h
      · exact .inl (hfailure _ h)
      next next hnext =>
      cases h
      exact .inr ⟨hmutable, replacement, hnext, rfl⟩
    next =>
      cases h
      exact .inl rfl
  · cases h
    exact .inl rfl

/-- **A run of plugins is a chain of accepted replacements**, and it is marked
modified exactly if the chain is not empty. -/
theorem foldlM_runAfterResponsePlugin_chain {host : ResponseHost} {plugins : List LoadedPlugin}
    {s s' : AfterState} (h : plugins.foldlM (runAfterResponsePlugin host reqID mutable) s = .ok s') :
    ∃ replacements, acceptReplacements host.classifier.toSignatureClassifier s.current
        replacements = .ok s'.current ∧ (mutable = false → replacements = []) ∧
      (s'.modified = true ↔ s.modified = true ∨ replacements ≠ []) := by
  induction plugins generalizing s with
  | nil =>
    cases h
    exact ⟨[], rfl, fun _ => rfl, by simp⟩
  | cons lp plugins ih =>
  obtain ⟨s₁, hstep, hrest⟩ := Attempt.bind_eq_ok.mp h
  obtain ⟨replacements, hchain, himmutable, hmodified⟩ := ih hrest
  rcases runAfterResponsePlugin_ok hstep with rfl | ⟨hmutable, replacement, haccept, hmod⟩
  · exact ⟨replacements, hchain, himmutable, hmodified⟩
  refine ⟨replacement :: replacements, ?_, ?_, ?_⟩
  · exact Attempt.bind_eq_ok.mpr ⟨s₁.current, haccept, hchain⟩
  · intro hfalse
    cases hmutable.symm.trans hfalse
  · simp [hmodified, hmod]

/-- **What `RunAfterResponse` returns** is the response it was given, or the end
of a chain of accepted replacements that keeps every compared fact. -/
theorem runAfterResponse_kept (host : ResponseHost) (reqID : UInt64) (plugins : List LoadedPlugin)
    (resp : Engine.ChatResponse) (mutable : Bool) :
    (runAfterResponse host reqID plugins resp mutable).1 = resp ∨
      mutable = true ∧ ∃ replacements final, replacements ≠ [] ∧
        acceptReplacements host.classifier.toSignatureClassifier (toPBChatResponse host resp)
          replacements = .ok final ∧
        ComparedKept (toPBChatResponse host resp) final ∧
        (runAfterResponse host reqID plugins resp mutable).1 = fromPBChatResponse host final := by
  unfold runAfterResponse
  cases hrun : plugins.foldlM (runAfterResponsePlugin host reqID mutable)
      { current := toPBChatResponse host resp } with
  | error e => exact .inl rfl
  | ok s =>
    obtain ⟨replacements, hchain, himmutable, hmodified⟩ := foldlM_runAfterResponsePlugin_chain hrun
    by_cases hmod : s.modified = true
    · -- a modified run has a replacement, so the path was mutable
      have hne : replacements ≠ [] := (hmodified.mp hmod).resolve_left (by simp)
      have hmutable : mutable = true := by
        by_contra hfalse
        exact hne (himmutable (by simpa using hfalse))
      refine .inr ⟨hmutable, replacements, s.current, hne, hchain,
        comparedKept_of_acceptReplacements hchain, ?_⟩
      simp [hmod]
    · exact .inl (by simp [hmod])

end chain

end ToranaEdge
