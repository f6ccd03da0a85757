import ToranaEdge.Pipeline.Host

/-! # The before-request chain

`RunBeforeRequestTracked` hands a request to one plugin after another.  For
each call metadata is injected into the request itself and restored on every
exit; a returned replacement is verified against the injected request; and a
recorded block ends the chain.

A plugin is any function from the bytes of its hook input to the verdicts it
records and the bytes it returns or the trap it ends in.  Plugin state is
private to a plugin and a chain calls each plugin once, so this covers every
behaviour within one chain. -/

namespace ToranaEdge

open Attempt List

/-! ## One plugin -/

/-- A loaded plugin. -/
structure LoadedPlugin where
  name : String
  hasGrant : String → Bool
  failureMode : String
  /-- The guest call: verdicts recorded on the way, and the result. -/
  call : Bytes → List VerdictCall × Except String Bytes

def allRequestGrants : List String :=
  ["ir.cache_control.write", "ir.messages.write.user", "ir.messages.write.assistant",
    "ir.messages.write.system", "ir.messages.write.tool", "ir.messages.write.developer",
    "ir.messages.write.other", "ir.tool_result_content.write", "ir.tool_result_errors.write",
    "ir.tool_results.write", "ir.tools.write", "ir.model.write", "ir.params.write"]

def holdsAllRequestGrants (hasGrant : String → Bool) : Bool :=
  allRequestGrants.all hasGrant

/-- The write-grant check a replacement has to pass. -/
def verifyReplacement (ext : Externals) (lp : LoadedPlugin) (current replacement : ChatRequest) :
    Except String Unit :=
  if holdsAllRequestGrants lp.hasGrant then verifyFastPath ext current replacement
  else verifyRequestMutation ext current replacement lp.hasGrant

/-- What one call leaves behind.  `current` is the request that chains when there
is no replacement, `input` the hook input the plugin was called with. -/
structure PluginStep where
  current : ChatRequest
  verdicts : RequestVerdicts
  next : Option ChatRequest := none
  stop : Bool := false
  err : Option String := none
  input : Option Bytes := none
  observed : List Bytes := []

section chain

variable {Topology Engine : Type} (host : Host Topology Engine)

/-- Zero bytes is the one encoding of pass-through. -/
def decodeHookResult (raw : Bytes) : Except String (Option (Option ChatRequest)) :=
  if raw = [] then .ok none else host.decodeAction raw

variable (lp : LoadedPlugin)

/-- The exit after a trap or an invalid result: a block stands, then the failure
mode decides. -/
def failedCall (step : PluginStep) (message : String) : PluginStep :=
  if step.verdicts.blocked then
    { step with verdicts := step.verdicts.discardFrom lp.name, stop := true }
  else if lp.failureMode = "block" then
    { step with verdicts := step.verdicts.discardFrom lp.name, err := some message }
  else { step with verdicts := step.verdicts.discardFrom lp.name }

/-- The exit after a refused replacement: here the failure mode is asked first. -/
def refusedReplacement (step : PluginStep) (message : String) : PluginStep :=
  if lp.failureMode = "block" then
    { step with verdicts := step.verdicts.discardFrom lp.name, err := some message }
  else
    { step with
      verdicts := step.verdicts.discardFrom lp.name
      stop := step.verdicts.blocked }

def validateCandidate (topo : Topology) (current replacement : ChatRequest) :
    Except String Unit :=
  match host.candidateValidator with
  | none => .ok ()
  | some validate => validate topo current replacement

/-- The observer sees a replacement with its metadata already restored. -/
def observeMutation (replacement : ChatRequest) : List Bytes :=
  match host.marshalRequest replacement with
  | .ok raw => [raw]
  | .error _ => []

/-- A returned replacement is accepted, or refused on one of two grounds. -/
def settleReplacement (topo : Topology) (saved : Bytes) (step : PluginStep)
    (replacement : ChatRequest) : PluginStep :=
  match verifyReplacement host.ext lp step.current replacement with
  | .error e =>
    refusedReplacement lp step
      s!"plugin {lp.name} returned an invalid request replacement: {e}"
  | .ok () =>
    match validateCandidate host topo step.current replacement with
    | .error e =>
      refusedReplacement lp step
        s!"plugin {lp.name} returned a provider-invalid request replacement: {e}"
    | .ok () =>
      { step with
        next := some (restoreRequestHeaders replacement saved)
        stop := step.verdicts.blocked
        observed := observeMutation host (restoreRequestHeaders replacement saved) }

/-- The result of a call that returned. -/
def settleResult (topo : Topology) (saved : Bytes) (step : PluginStep)
    (raw : Bytes) : PluginStep :=
  match decodeHookResult host raw with
  | .error e => failedCall lp step s!"plugin {lp.name} returned an invalid result: {e}"
  | .ok (some (some replacement)) => settleReplacement host lp topo saved step replacement
  | .ok _ => { step with stop := step.verdicts.blocked }

/-- The call itself, on a request that carries the injected metadata. -/
def dispatchBeforeRequest (reqID : UInt64) (lp : LoadedPlugin) (topo : Topology) (saved : Bytes)
    (verdicts : RequestVerdicts) (current : ChatRequest) : PluginStep :=
  match host.encodeHookInput reqID current with
  | .error e => { current, verdicts, err := some e }
  | .ok input =>
    match (lp.call input).2 with
    | .error e =>
      failedCall lp
        { current, input := some input, verdicts := verdicts.recordAll lp.name (lp.call input).1 }
        s!"plugin {lp.name} blocked request after failure: {e}"
    | .ok raw =>
      settleResult host lp topo saved
        { current, input := some input, verdicts := verdicts.recordAll lp.name (lp.call input).1 }
        raw

/-- This plugin's suggestion outcomes, when there are any. -/
def projectSuggestions (current : ChatRequest) : ChatRequest :=
  match host.suggestionOutcomes with
  | none => current
  | some outcomes =>
    match outcomes lp.name with
    | .ok (some bytes) => injectSuggestionOutcomes host current bytes
    | _ => current

/-- The per-plugin projection; headers only with the grant. -/
def projectFor (headers : HeaderMap) (current : ChatRequest) : ChatRequest :=
  if headers ≠ [] ∧ lp.hasGrant "env.request_headers" = true then
    injectRequestHeaders host (projectSuggestions host lp current) (projectChatHeaders host headers)
  else projectSuggestions host lp current

/-- The deferred restoration, on the chained request and on a replacement. -/
def restoreStep (saved : Bytes) (step : PluginStep) : PluginStep :=
  { step with
    current := restoreRequestHeaders step.current saved
    next := step.next.map fun r => restoreRequestHeaders r saved }

def runBeforeRequestPlugin (reqID : UInt64) (lp : LoadedPlugin) (current : ChatRequest)
    (headers : HeaderMap) (topo : Topology) (verdicts : RequestVerdicts) : PluginStep :=
  restoreStep current.toranaMetaJson
    (dispatchBeforeRequest host reqID lp topo current.toranaMetaJson verdicts
      (projectFor host lp headers current))

/-! ## The chain -/

/-- One link of a run: the plugin, the request it was handed before injection,
and what the call left. -/
structure ChainCall where
  plugin : LoadedPlugin
  handed : ChatRequest
  step : PluginStep

/-- The links of a chain, in order. -/
def chainCalls (reqID : UInt64) (headers : HeaderMap) (topo : Topology) :
    List LoadedPlugin → ChatRequest → RequestVerdicts → List ChainCall
  | [], _, _ => []
  | lp :: rest, current, verdicts =>
    ⟨lp, current, runBeforeRequestPlugin host reqID lp current headers topo verdicts⟩ ::
      if (runBeforeRequestPlugin host reqID lp current headers topo verdicts).err.isSome ||
          (runBeforeRequestPlugin host reqID lp current headers topo verdicts).stop then []
      else
        chainCalls reqID headers topo rest
          ((runBeforeRequestPlugin host reqID lp current headers topo verdicts).next.getD
            (runBeforeRequestPlugin host reqID lp current headers topo verdicts).current)
          (runBeforeRequestPlugin host reqID lp current headers topo verdicts).verdicts

/-- The request after a link. -/
def ChainCall.after (c : ChainCall) : ChatRequest := c.step.next.getD c.step.current

/-- `RunBeforeRequestTracked`: the resulting request, whether a replacement was
accepted, and the links of the run. -/
def runBeforeRequestTracked (reqID : UInt64) (plugins : List LoadedPlugin) (chat : Engine)
    (headers : HeaderMap) (verdicts : RequestVerdicts) :
    Except String (Engine × Bool) × List ChainCall :=
  match host.toPB chat with
  | .error e => (.error s!"invalid engine request: {e}", [])
  | .ok current =>
    let calls := chainCalls host reqID headers (host.topology chat) plugins current verdicts
    match calls.findSome? fun c => c.step.err with
    | some e => (.error e, calls)
    | none =>
      if calls.all fun c => c.step.next.isNone then (.ok (chat, false), calls)
      else
        match host.fromPB ((calls.getLast?.map ChainCall.after).getD current) with
        | .error e => (.error s!"convert replacement: {e}", calls)
        | .ok out => (.ok (host.withTopology (host.topology chat) out, true), calls)

/-! ## What one call can do -/

variable {host}
variable {reqID : UInt64} {lp : LoadedPlugin} {topo : Topology} {saved : Bytes} (step : PluginStep)

variable (message : String)

lemma failedCall_next : (failedCall lp step message).next = step.next := by
  unfold failedCall
  split
  · rfl
  · split <;> rfl

lemma refusedReplacement_next : (refusedReplacement lp step message).next = step.next := by
  unfold refusedReplacement
  split <;> rfl

/-- The outcome of a call, said once: the chained request is the injected one,
the only way to a replacement is through verification, and a block ends the
chain. -/
structure StepSpec (ext : Externals) (lp : LoadedPlugin) (saved : Bytes) (before step : PluginStep) :
    Prop where
  current : step.current = before.current
  input : step.input = before.input
  blocked : step.verdicts.blocked = before.verdicts.blocked
  next : before.next = none → ∀ r ∈ step.next, ∃ r₀, r = r₀.withMeta saved ∧
    verifyReplacement ext lp before.current r₀ = .ok ()
  ends : before.verdicts.blocked = true → step.err.isSome = true ∨ step.stop = true

lemma failedCall_spec : StepSpec host.ext lp saved step (failedCall lp step message) := by
  unfold failedCall
  split
  · exact ⟨rfl, rfl, rfl, fun hnone _ hr => (nomatch hnone.symm.trans hr), fun _ => .inr rfl⟩
  next hblocked =>
  split <;> exact ⟨rfl, rfl, rfl, fun hnone _ hr => (nomatch hnone.symm.trans hr),
    fun h => absurd h hblocked⟩

lemma refusedReplacement_spec :
    StepSpec host.ext lp saved step (refusedReplacement lp step message) := by
  unfold refusedReplacement
  split
  · exact ⟨rfl, rfl, rfl, fun hnone _ hr => (nomatch hnone.symm.trans hr), fun _ => .inl rfl⟩
  · exact ⟨rfl, rfl, rfl, fun hnone _ hr => (nomatch hnone.symm.trans hr), .inr⟩

lemma settleReplacement_spec (replacement : ChatRequest) :
    StepSpec host.ext lp saved step (settleReplacement host lp topo saved step replacement) := by
  unfold settleReplacement
  split
  · exact refusedReplacement_spec step _
  next hverify =>
  split
  · exact refusedReplacement_spec step _
  refine ⟨rfl, rfl, rfl, ?_, .inr⟩
  intro _ r hr
  cases hr
  exact ⟨replacement, rfl, hverify⟩

lemma settleResult_spec (raw : Bytes) :
    StepSpec host.ext lp saved step (settleResult host lp topo saved step raw) := by
  unfold settleResult
  split
  · exact failedCall_spec step _
  · exact settleReplacement_spec step _
  · exact ⟨rfl, rfl, rfl, fun hnone _ hr => (nomatch hnone.symm.trans hr), .inr⟩

variable {verdicts : RequestVerdicts} {current : ChatRequest} {ext : Externals}

/-- A dispatch whose input was encoded is a step from the guest's answer. -/
lemma dispatch_spec {input : Bytes} (hinput : host.encodeHookInput reqID current = .ok input) :
    StepSpec host.ext lp saved
      { current, input := some input, verdicts := verdicts.recordAll lp.name (lp.call input).1 }
      (dispatchBeforeRequest host reqID lp topo saved verdicts current) := by
  unfold dispatchBeforeRequest
  rw [hinput]
  dsimp only
  split
  · exact failedCall_spec _ _
  · exact settleResult_spec _ _

lemma dispatch_next {r : ChatRequest}
    (h : r ∈ (dispatchBeforeRequest host reqID lp topo saved verdicts current).next) :
    ∃ r₀, r = r₀.withMeta saved ∧ verifyReplacement host.ext lp current r₀ = .ok () := by
  cases hinput : host.encodeHookInput reqID current with
  | error e =>
    rw [dispatchBeforeRequest, hinput] at h
    cases h
  | ok input => exact (dispatch_spec hinput).next rfl r h

lemma settleReplacement_next (step step' : PluginStep) (replacement : ChatRequest)
    (hcurrent : step.current = step'.current) (hnext : step.next = step'.next) :
    (settleReplacement host lp topo saved step replacement).next =
      (settleReplacement host lp topo saved step' replacement).next := by
  unfold settleReplacement
  rw [hcurrent]
  split
  · rw [refusedReplacement_next, refusedReplacement_next, hnext]
  split
  · rw [refusedReplacement_next, refusedReplacement_next, hnext]
  · rfl

/-- Verdicts do not influence which replacement is accepted. -/
lemma dispatch_next_congr (verdicts verdicts' : RequestVerdicts) (current : ChatRequest) :
    (dispatchBeforeRequest host reqID lp topo saved verdicts current).next =
      (dispatchBeforeRequest host reqID lp topo saved verdicts' current).next := by
  unfold dispatchBeforeRequest
  split
  · rfl
  split
  · rw [failedCall_next, failedCall_next]
  unfold settleResult
  split
  · rw [failedCall_next, failedCall_next]
  · exact settleReplacement_next _ _ _ rfl rfl
  · rfl

/-! ## One plugin leaves the metadata alone -/

lemma projectFor_withMeta (headers : HeaderMap) (current : ChatRequest) (bytes : Bytes) :
    (projectFor host lp headers current).withMeta bytes = current.withMeta bytes := by
  have hsuggest : (projectSuggestions host lp current).withMeta bytes = current.withMeta bytes := by
    unfold projectSuggestions
    split
    · rfl
    split
    · exact injectMeta_withMeta host current suggestionsKey _ bytes
    · rfl
  unfold projectFor
  split
  · rw [injectRequestHeaders_withMeta, hsuggest]
  · exact hsuggest

/-- The chained request comes back exactly as it was handed in. -/
lemma runBeforeRequestPlugin_current (current : ChatRequest) (headers : HeaderMap)
    (verdicts : RequestVerdicts) :
    (runBeforeRequestPlugin host reqID lp current headers topo verdicts).current = current := by
  have hrestored : (projectFor host lp headers current).withMeta current.toranaMetaJson = current := by
    rw [projectFor_withMeta, ChatRequest.withMeta_self]
  cases hinput : host.encodeHookInput reqID (projectFor host lp headers current) with
  | error e =>
    rw [runBeforeRequestPlugin, dispatchBeforeRequest, hinput]
    exact hrestored
  | ok input =>
    exact (congrArg (restoreRequestHeaders · _) (dispatch_spec hinput).current).trans hrestored

/-- Verification looks at metadata only to compare it. -/
lemma verifyUnconditionalInvariants_withMeta {a o : ChatRequest}
    (h : verifyUnconditionalInvariants ext a o = .ok ()) (bytes : Bytes) :
    verifyUnconditionalInvariants ext (a.withMeta bytes) (o.withMeta bytes) = .ok () := by
  obtain ⟨u, hunknown, h⟩ := bind_eq_ok.mp h
  refine bind_eq_ok.mpr ⟨u, hunknown, ?_⟩
  split at h
  · cases h
  · rw [if_neg (by simp [ChatRequest.withMeta])]
    exact h

lemma verifyReplacement_withMeta {a o : ChatRequest} (h : verifyReplacement ext lp a o = .ok ())
    (bytes : Bytes) : verifyReplacement ext lp (a.withMeta bytes) (o.withMeta bytes) = .ok () := by
  unfold verifyReplacement at h ⊢
  split at h
  · next hall =>
    rw [if_pos hall]
    exact verifyUnconditionalInvariants_withMeta h bytes
  next hall =>
  rw [if_neg hall]
  obtain ⟨u, hinvariants, hsections⟩ := bind_eq_ok.mp h
  exact bind_eq_ok.mpr
    ⟨u, verifyUnconditionalInvariants_withMeta hinvariants bytes, hsections⟩

/-- An accepted replacement carries the metadata of the request it replaces, and
as such passes verification against it. -/
lemma runBeforeRequestPlugin_next {r : ChatRequest} {headers : HeaderMap}
    (h : r ∈ (runBeforeRequestPlugin host reqID lp current headers topo verdicts).next) :
    r.toranaMetaJson = current.toranaMetaJson ∧
      verifyReplacement host.ext lp current r = .ok () := by
  obtain ⟨r₁, hr₁, rfl⟩ := Option.mem_map.mp h
  obtain ⟨r₀, rfl, hverify⟩ := dispatch_next hr₁
  refine ⟨rfl, ?_⟩
  have hrestored := verifyReplacement_withMeta hverify current.toranaMetaJson
  rwa [projectFor_withMeta] at hrestored

lemma runBeforeRequestPlugin_input (current : ChatRequest) (headers : HeaderMap)
    (verdicts : RequestVerdicts) :
    (runBeforeRequestPlugin host reqID lp current headers topo verdicts).input =
      (host.encodeHookInput reqID (projectFor host lp headers current)).toOption := by
  cases hinput : host.encodeHookInput reqID (projectFor host lp headers current) with
  | error e =>
    rw [runBeforeRequestPlugin, dispatchBeforeRequest, hinput]
    rfl
  | ok input => exact (dispatch_spec hinput).input

/-- Without the grant the projection ignores the headers. -/
lemma projectFor_ungranted (h : lp.hasGrant "env.request_headers" = false)
    (headers headers' : HeaderMap) (current : ChatRequest) :
    projectFor host lp headers current = projectFor host lp headers' current := by
  simp [projectFor, h]

/-! ## Whole chains -/

/-- The plugin of this link recorded a block during its call. -/
def ChainCall.recordsBlock (c : ChainCall) : Bool :=
  match c.step.input with
  | some input => (c.plugin.call input).1.any VerdictCall.isBlock
  | none => false

section runs

variable {headers : HeaderMap} {plugins : List LoadedPlugin} {current : ChatRequest}
  {verdicts : RequestVerdicts}

variable {c : ChainCall}

/-- Every link is a call on the request it was handed. -/
lemma step_of_mem_chainCalls (h : c ∈ chainCalls host reqID headers topo plugins current verdicts) :
    ∃ v, c.step = runBeforeRequestPlugin host reqID c.plugin c.handed headers topo v := by
  induction plugins generalizing current verdicts with
  | nil => cases h
  | cons lp rest ih =>
  rcases mem_cons.mp h with rfl | h
  · exact ⟨verdicts, rfl⟩
  split at h
  · cases h
  · exact ih h

/-- What a link is handed is what the link before left, which did not end the chain. -/
lemma adjacent_of_chainCalls {pre post : List ChainCall} {c d : ChainCall}
    (h : chainCalls host reqID headers topo plugins current verdicts = pre ++ c :: d :: post) :
    d.handed = c.after ∧ ¬ (c.step.err.isSome = true ∨ c.step.stop = true) := by
  induction plugins generalizing current verdicts pre with
  | nil =>
    have hlen := congrArg length h
    simp [chainCalls] at hlen
  | cons lp rest ih =>
  rw [chainCalls] at h
  split at h
  · have hlen := congrArg length h
    simp at hlen
    omega
  next hgoes =>
  cases pre with
  | nil =>
    rw [nil_append, cons.injEq] at h
    obtain ⟨rfl, htail⟩ := h
    cases rest with
    | nil => cases htail
    | cons lp' rest' =>
    rw [chainCalls, cons.injEq] at htail
    rw [← htail.1]
    exact ⟨rfl, by simpa using hgoes⟩
  | cons _ pre =>
    rw [cons_append, cons.injEq] at h
    exact ih h.2

lemma ends_of_recordsBlock
    (hstep : c.step = runBeforeRequestPlugin host reqID c.plugin c.handed headers topo verdicts)
    (h : c.recordsBlock = true) : c.step.err.isSome = true ∨ c.step.stop = true := by
  unfold ChainCall.recordsBlock at h
  split at h
  · next input hinput =>
    rw [hstep, runBeforeRequestPlugin_input] at hinput
    rw [hstep]
    exact (dispatch_spec (toOption_eq_some.mp hinput)).ends
      (RequestVerdicts.blocked_recordAll (.inr h))
  · cases h

end runs

/-- Two runs that differ in the headers only hand the same requests down, as long
as every plugin that may see the headers had the same replacement accepted. -/
lemma handed_agree {headers headers' : HeaderMap} {plugins : List LoadedPlugin}
    {current : ChatRequest} {verdicts verdicts' : RequestVerdicts} {k : Nat} {c d : ChainCall}
    (hc : (chainCalls host reqID headers topo plugins current verdicts)[k]? = some c)
    (hd : (chainCalls host reqID headers' topo plugins current verdicts')[k]? = some d)
    (hgranted : ∀ j < k, ∀ cj dj,
      (chainCalls host reqID headers topo plugins current verdicts)[j]? = some cj →
      (chainCalls host reqID headers' topo plugins current verdicts')[j]? = some dj →
      cj.plugin.hasGrant "env.request_headers" = true → cj.step.next = dj.step.next) :
    c.plugin = d.plugin ∧ c.handed = d.handed := by
  induction plugins generalizing current verdicts verdicts' k with
  | nil => simp [chainCalls] at hc
  | cons lp rest ih =>
  cases k with
  | zero =>
    cases hc
    cases hd
    exact ⟨rfl, rfl⟩
  | succ k =>
  have hnext : (runBeforeRequestPlugin host reqID lp current headers topo verdicts).next =
      (runBeforeRequestPlugin host reqID lp current headers' topo verdicts').next := by
    by_cases hgrant : lp.hasGrant "env.request_headers" = true
    · exact hgranted 0 (Nat.succ_pos k) _ _ rfl rfl hgrant
    rw [runBeforeRequestPlugin, projectFor_ungranted (Bool.eq_false_iff.mpr hgrant) headers headers']
    exact congrArg (Option.map _) (dispatch_next_congr verdicts verdicts' _)
  rw [chainCalls, runBeforeRequestPlugin_current] at hc hd
  rw [hnext] at hc
  split at hc
  · simp at hc
  next hgo =>
  split at hd
  · simp at hd
  next hgo' =>
  refine ih hc hd ?_
  intro j hj cj dj hcj hdj
  apply hgranted (j + 1) (Nat.succ_lt_succ hj) cj dj
  · rw [chainCalls, if_neg hgo, runBeforeRequestPlugin_current, hnext]
    exact hcj
  · rw [chainCalls, if_neg hgo', runBeforeRequestPlugin_current]
    exact hdj

lemma runBeforeRequestTracked_calls (plugins : List LoadedPlugin) (chat : Engine)
    (headers : HeaderMap) (verdicts : RequestVerdicts) :
    (runBeforeRequestTracked host reqID plugins chat headers verdicts).2 = match host.toPB chat with
      | .error _ => []
      | .ok current =>
        chainCalls host reqID headers (host.topology chat) plugins current verdicts := by
  unfold runBeforeRequestTracked
  cases host.toPB chat with
  | error e => rfl
  | ok current =>
  dsimp only
  split
  · rfl
  split
  · rfl
  · split <;> rfl

end chain

/-- **Frame of the before-request chain.**  For any plugins, request, headers and
recorded verdicts: a call leaves the metadata of the chained request and of
an accepted replacement as it was; each plugin is handed what the one before
was handed or a replacement verified against that; no plugin is called after
one that recorded a block; and the hook input of a plugin without the header
grant is the same under any two header maps, unless an earlier plugin with
the grant had different replacements accepted. -/
theorem runBeforeRequestTracked_frame {Topology Engine : Type} (host : Host Topology Engine)
    (reqID : UInt64) (plugins : List LoadedPlugin) (chat : Engine) (headers : HeaderMap)
    (verdicts : RequestVerdicts) : (∀ lp current topo v,
      (runBeforeRequestPlugin host reqID lp current headers topo v).current.toranaMetaJson =
          current.toranaMetaJson ∧
        ∀ r ∈ (runBeforeRequestPlugin host reqID lp current headers topo v).next,
          r.toranaMetaJson = current.toranaMetaJson) ∧ (∀ pre c d post,
      (runBeforeRequestTracked host reqID plugins chat headers verdicts).2 =
          pre ++ c :: d :: post → d.handed = c.handed ∨ c.step.next = some d.handed ∧
          verifyReplacement host.ext c.plugin c.handed d.handed = .ok ()) ∧ (∀ pre c post,
      (runBeforeRequestTracked host reqID plugins chat headers verdicts).2 = pre ++ c :: post →
        c.recordsBlock = true → post = []) ∧ (∀ (headers' : HeaderMap) (k : Nat) (c d : ChainCall),
      (runBeforeRequestTracked host reqID plugins chat headers verdicts).2[k]? = some c →
      (runBeforeRequestTracked host reqID plugins chat headers' verdicts).2[k]? = some d →
      c.plugin.hasGrant "env.request_headers" = false → (∀ j < k, ∀ cj dj : ChainCall,
        (runBeforeRequestTracked host reqID plugins chat headers verdicts).2[j]? = some cj →
        (runBeforeRequestTracked host reqID plugins chat headers' verdicts).2[j]? = some dj →
        cj.plugin.hasGrant "env.request_headers" = true → cj.step.next = dj.step.next) →
      c.step.input = d.step.input) := by
  refine ⟨?_, ?_⟩
  · intro lp current topo v
    refine ⟨by rw [runBeforeRequestPlugin_current], ?_⟩
    intro r hr
    exact (runBeforeRequestPlugin_next hr).1
  simp only [runBeforeRequestTracked_calls]
  cases host.toPB chat with
  | error e =>
    -- an invalid engine request calls no plugin
    simp
  | ok current =>
  refine ⟨?_, ?_, ?_⟩
  · intro pre c d post h
    obtain ⟨v, hstep⟩ := step_of_mem_chainCalls (h ▸ mem_append_right pre mem_cons_self)
    have hhanded := (adjacent_of_chainCalls h).1
    cases hnext : c.step.next with
    | none =>
      left
      rw [hhanded, ChainCall.after, hnext, Option.getD_none, hstep, runBeforeRequestPlugin_current]
    | some r =>
    right
    have hr : r ∈ c.step.next := hnext
    rw [hstep] at hr
    rw [hhanded, ChainCall.after, hnext]
    exact ⟨rfl, (runBeforeRequestPlugin_next hr).2⟩
  · intro pre c post h hblock
    obtain ⟨v, hstep⟩ := step_of_mem_chainCalls (h ▸ mem_append_right pre mem_cons_self)
    cases post with
    | nil => rfl
    | cons d post => exact absurd (ends_of_recordsBlock hstep hblock) (adjacent_of_chainCalls h).2
  · intro headers' k c d hc hd hgrant hagree
    obtain ⟨hplugin, hhanded⟩ := handed_agree hc hd hagree
    obtain ⟨v, hstep⟩ := step_of_mem_chainCalls (mem_of_getElem? hc)
    obtain ⟨v', hstep'⟩ := step_of_mem_chainCalls (mem_of_getElem? hd)
    rw [hstep, hstep', runBeforeRequestPlugin_input, runBeforeRequestPlugin_input, ← hplugin,
      ← hhanded, projectFor_ungranted hgrant headers headers']

end ToranaEdge
