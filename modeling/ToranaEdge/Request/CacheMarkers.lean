import ToranaEdge.Request.HostFacts

/-! # What a cache marker moves

Cache breakpoints are not content: the role views, the masked tool-result
content and the tool records leave them out, so a plugin that only places
markers should need `ir.cache_control.write` alone.  One section disagrees.
Tool-result texts are hashed with their absolute block and item index, so a
marker that is inserted before one moves it.

`unmarked` erases the markers.  Every view but the places of the texts
factors through it, and two requests with one erasure are told apart by the
cache section and the text section only. -/

namespace ToranaEdge

open Framing Reserve Attempt List TokenBinding Message RequestBlock

/-! ## Requests without their markers -/

def unmarkedContent (content : List ToolResultContentBlock) : List ToolResultContentBlock :=
  content.filter fun c => c.cacheMarker.isNone

def unmarkedResult (result : RequestToolResultBlock) : RequestToolResultBlock :=
  { result with content := unmarkedContent result.content }

def unmarkedKind : RequestBlockKind → RequestBlockKind
  | .toolResult b => .toolResult (unmarkedResult b)
  | kind => kind

/-- A block that is not a marker, without the markers nested in it. -/
def RequestBlock.stripped (b : RequestBlock) : RequestBlock :=
  { b with kind := b.kind.map unmarkedKind }

def Message.unmarked (m : Message) : Message :=
  { m with blocks := (m.blocks.filter fun b => b.cacheMarker.isNone).map RequestBlock.stripped }

variable (req : ChatRequest)

def ChatRequest.unmarked : ChatRequest :=
  { req with messages := req.messages.map Message.unmarked
             tools := req.tools.map ToolDef.unmarked }

/-- **A marker edit**: markers are inserted, removed, moved and rewritten, and
nothing else; in particular no unknown bytes come with them. -/
structure MarkerEdit (accepted out : ChatRequest) : Prop where
  rest : out.unmarked = accepted.unmarked
  plain : verifyUnknownFields out = .ok ()

/-! ## Views that do not see markers -/

variable {b : RequestBlock}

/-- A marker is neither text, tool use, tool result nor carrier of a token. -/
lemma eq_of_cacheMarker (h : b.cacheMarker.isSome = true) :
    ∃ marker unknown, b = { kind := some (.cacheBreakpoint marker), unknown } := by
  unfold cacheMarker at h
  split at h
  · exact ⟨_, _, rfl⟩
  · cases h

/-- A view of blocks that passes over markers and does not look at the markers
inside a tool result is the same before and after erasing them. -/
lemma filterMap_unmarked {α : Type} {f : RequestBlock → Option α}
    (hmarker : ∀ marker unknown, f ⟨some (.cacheBreakpoint marker), unknown⟩ = none)
    (hstripped : ∀ b : RequestBlock, f b.stripped = f b) (m : Message) :
    m.unmarked.blocks.filterMap f = m.blocks.filterMap f := by
  show ((m.blocks.filter fun b => b.cacheMarker.isNone).map stripped).filterMap f = _
  induction m.blocks with
  | nil => rfl
  | cons b blocks ih =>
  cases hb : b.cacheMarker with
  | some marker =>
    obtain ⟨marker, unknown, rfl⟩ := eq_of_cacheMarker (b := b) (by simp [hb])
    rw [filter_cons_of_neg (by simp [hb]), ih, filterMap_cons_none (hmarker marker unknown)]
  | none =>
    rw [filter_cons_of_pos (by simp [hb]), map_cons, filterMap_cons, filterMap_cons, hstripped, ih]

variable {binding : TokenBinding}

lemma select_stripped (h : binding ≠ .toolResult) (b : RequestBlock) :
    binding.select b.stripped = binding.select b := by
  obtain ⟨_ | kind, unknown⟩ := b
  · rfl
  · cases kind <;> cases binding <;> first | rfl | exact absurd rfl h

lemma select_unmarked (h : binding ≠ .toolResult) (m : Message) :
    m.unmarked.blocks.filterMap binding.select = m.blocks.filterMap binding.select := by
  refine filterMap_unmarked (fun _ _ => ?_) (select_stripped h) m
  cases binding <;> rfl

variable (m : Message)

lemma trailRef_unmarked : m.unmarked.blocks.filterMap trailRef = m.blocks.filterMap trailRef := by
  refine filterMap_unmarked (fun _ _ => rfl) (fun b => ?_) m
  obtain ⟨_ | kind, unknown⟩ := b
  · rfl
  · cases kind <;> rfl

lemma trailingBlock_unmarked :
    m.unmarked.blocks.filterMap trailingBlock = m.blocks.filterMap trailingBlock := by
  refine filterMap_unmarked (fun _ _ => rfl) (fun b => ?_) m
  obtain ⟨_ | kind, unknown⟩ := b
  · rfl
  · cases kind <;> rfl

variable (content : List ToolResultContentBlock)

/-- Content made of markers alone is content that erases to nothing. -/
lemma roleNestedContent_unmarked :
    roleNestedContent (unmarkedContent content) = roleNestedContent content := by
  have hall : ((unmarkedContent content).all fun c => c.cacheMarker.isSome) =
      content.all fun c => c.cacheMarker.isSome := by
    simp [unmarkedContent]
  rw [roleNestedContent, roleNestedContent, hall]

lemma roleViewMessage_unmarked : roleViewMessage m.unmarked = roleViewMessage m := by
  have hblocks : m.unmarked.blocks.filterMap roleViewBlock = m.blocks.filterMap roleViewBlock := by
    refine filterMap_unmarked (fun _ _ => rfl) (fun b => ?_) m
    obtain ⟨_ | kind, unknown⟩ := b
    · rfl
    · rcases kind with b | b | b | b | b | b | b | b | b
      case toolResult =>
        show some _ = some _
        simp [stripped, unmarkedKind, roleViewKind, unmarkedResult, roleNestedContent_unmarked]
      all_goals rfl
  show ({ role := m.role, blocks := m.unmarked.blocks.filterMap roleViewBlock } : Message) = _
  rw [hblocks]
  rfl

lemma maskedContent_unmarked : maskedContent (unmarkedContent content) = maskedContent content := by
  rw [maskedContent, unmarkedContent, filterMap_filter]
  refine filterMap_congr fun c _ => ?_
  cases hc : c.cacheMarker <;> simp

lemma toolResult_stripped (b : RequestBlock) :
    b.stripped.toolResult = b.toolResult.map unmarkedResult := by
  obtain ⟨_ | kind, unknown⟩ := b
  · rfl
  · cases kind <;> rfl

lemma unmarkedResult_idem (result : RequestToolResultBlock) :
    unmarkedResult (unmarkedResult result) = unmarkedResult result := by
  simp [unmarkedResult, unmarkedContent]

/-! ## Lifted to requests -/

lemma toolResults_unmarked_message : m.unmarked.blocks.filterMap toolResult =
      (m.blocks.filterMap toolResult).map unmarkedResult := by
  -- the erased results, read before and after erasing, are the same
  have herased : m.unmarked.blocks.filterMap (fun b => b.toolResult.map unmarkedResult) =
      m.blocks.filterMap fun b => b.toolResult.map unmarkedResult := by
    refine filterMap_unmarked (fun _ _ => rfl) (fun b => ?_) m
    rw [toolResult_stripped, Option.map_map]
    congr 1
    exact funext unmarkedResult_idem
  rw [map_filterMap, ← herased]
  refine filterMap_congr fun b hb => ?_
  -- a block that is left is a stripped one, whose result is erased already
  obtain ⟨b', -, rfl⟩ := mem_map.mp hb
  rw [toolResult_stripped, Option.map_map]
  congr 1
  exact (funext unmarkedResult_idem).symm

lemma toolResults_unmarked : req.unmarked.toolResults = req.toolResults.map unmarkedResult := by
  show ((req.messages.map unmarked).flatMap blocks).filterMap _ =
    ((req.messages.flatMap blocks).filterMap toolResult).map unmarkedResult
  rw [filterMap_flatMap, filterMap_flatMap, flatMap_map, map_flatMap]
  exact flatMap_congr fun m _ => toolResults_unmarked_message m

variable (ext : Externals)

lemma requestOccurrences_unmarked (h : binding ≠ .toolResult) (req : ChatRequest) :
    binding.requestOccurrences ext req.unmarked = binding.requestOccurrences ext req := by
  have hselect : req.unmarked.blocks.filterMap binding.select =
      req.blocks.filterMap binding.select := by
    show ((req.messages.map unmarked).flatMap blocks).filterMap _ =
      (req.messages.flatMap blocks).filterMap _
    rw [filterMap_flatMap, filterMap_flatMap, flatMap_map]
    exact flatMap_congr fun m _ => select_unmarked h m
  rw [requestOccurrences, hselect, requestOccurrences]

lemma trailingOccurrences_unmarked (m : Message) :
    trailingOccurrences ext m.unmarked = trailingOccurrences ext m := by
  have hrefs : trailingRefs m.unmarked = trailingRefs m := by
    rw [trailingRefs, trailRef_unmarked, trailingRefs]
  have htrailing : m.unmarked.trailing = m.trailing := by
    rw [trailing, trailingBlock_unmarked, trailing]
  simp [trailingOccurrences, trailingOccurrence, trailingPreimage, hrefs, htrailing]

lemma emptyTrailingCarrier_unmarked :
    emptyTrailingCarrier req.unmarked = emptyTrailingCarrier req := by
  show (req.messages.map unmarked).any _ = req.messages.any _
  rw [any_map]
  congr 1
  funext m
  simp only [Function.comp_apply, trailingBlock_unmarked]

lemma roleEntries_unmarked (req : ChatRequest) :
    roleEntries ext req.unmarked = roleEntries ext req := by
  have hentry : ∀ m : Message × Nat, roleEntry ext (Prod.map unmarked id m) = roleEntry ext m := by
    intro m
    simp only [roleEntry, fingerprintMessage, messagePreimage, Prod.map_fst,
      roleViewMessage_unmarked]
    rfl
  show (req.messages.map unmarked).zipIdx.mapM _ = req.messages.zipIdx.mapM _
  rw [zipIdx_map, mapM_map]
  congr 1
  funext m
  exact hentry m

lemma toolContentPreimage_unmarked (req : ChatRequest) :
    toolContentPreimage ext req.unmarked = toolContentPreimage ext req := by
  have hdigest : maskedDigest ext ∘ unmarkedResult = maskedDigest ext := by
    funext result
    simp [maskedDigest, unmarkedResult, maskedContent_unmarked]
  rw [toolContentPreimage, toolResults_unmarked, mapM_map]
  rw [hdigest, toolContentPreimage]

lemma toolErrorsPreimage_unmarked : toolErrorsPreimage req.unmarked = toolErrorsPreimage req := by
  rw [toolErrorsPreimage, toolResults_unmarked, flatMap_map]
  rfl

lemma toolsPreimage_unmarked : toolsPreimage req.unmarked = toolsPreimage req := by
  show counted toolRecord (req.tools.map ToolDef.unmarked) = counted toolRecord req.tools
  rw [counted, length_map, flatMap_map]
  rfl

/-! ## The verdict on a marker edit -/

section MarkerEdit

variable {ext : Externals} {accepted out : ChatRequest}

/-- What does not see markers does not see a marker edit. -/
lemma MarkerEdit.view_eq {α : Type} (h : MarkerEdit accepted out) (view : ChatRequest → α)
    (hview : ∀ req : ChatRequest, view req.unmarked = view req) : view out = view accepted := by
  calc view out = view out.unmarked := (hview out).symm
    _ = view accepted.unmarked := by rw [h.rest]
    _ = view accepted := hview accepted

/-- The occurrence of a tool result. -/
lemma select_toolResult {selected : String × List CoveredValue}
    (h : toolResult.select b = some selected) :
    ∃ r, b.toolResult = some r ∧ selected = (r.signature, [.plainString r.toolCallId,
      .plainString r.toolName, .plainBytes r.partMetadataJson, .optionalBool r.willContinue,
      .optionalString r.scheduling, .pinnedContent r.content, .plainEnum r.invocationKind]) := by
  obtain ⟨_ | kind, unknown⟩ := b
  · cases h
  · cases kind
    case toolResult r => exact ⟨r, rfl, (Option.some.inj h).symm⟩
    all_goals cases h

variable {req : ChatRequest} {acc : RequestSections} {canWrite : String → Bool}

/-- Tool results without tokens contribute no signed pair. -/
lemma signedPairs_toolResult {occs : List TokenOccurrence}
    (hunsigned : ∀ r ∈ req.toolResults, r.signature = "")
    (hoccs : toolResult.requestOccurrences ext req = .ok occs) : signedPairs occs = 0 := by
  have htoken : ∀ occ ∈ occs, occ.token = "" := by
    intro occ hocc
    obtain ⟨selected, hselected, hsome⟩ := exists_of_mem_mapM hoccs hocc
    obtain ⟨b, hb, hselect⟩ := mem_filterMap.mp hselected
    obtain ⟨r, hr, rfl⟩ := select_toolResult hselect
    unfold occurrence at hsome
    split at hsome <;> cases hsome
    exact hunsigned r (mem_filterMap.mpr ⟨b, hb, hr⟩)
  have hnone : occs.filterMap TokenOccurrence.signedKey = [] := by
    rw [filterMap_eq_nil_iff]
    intro occ hocc
    simp [TokenOccurrence.signedKey, htoken occ hocc]
  rw [signedPairs, Reserve.keys, hnone]
  rfl

/-- A tool result whose content has a fingerprint has an occurrence. -/
lemma exists_requestOccurrences_toolResult
    (hpinned : ∀ r ∈ req.toolResults, ∃ d, ext.toolResultContentFingerprint r.content = .ok d) :
    ∃ occs, toolResult.requestOccurrences ext req = .ok occs := by
  refine exists_mapM_eq_ok ?_
  intro selected hselected
  obtain ⟨b, hb, hselect⟩ := mem_filterMap.mp hselected
  obtain ⟨r, hr, rfl⟩ := select_toolResult hselect
  obtain ⟨d, hd⟩ := hpinned r (mem_filterMap.mpr ⟨b, hb, hr⟩)
  -- the pinned content is the only covered field that can fail
  obtain ⟨frames, hframes⟩ : ∃ frames, coveredPreimage ext [.plainString r.toolCallId,
      .plainString r.toolName, .plainBytes r.partMetadataJson, .optionalBool r.willContinue,
      .optionalString r.scheduling, .pinnedContent r.content, .plainEnum r.invocationKind] =
        .ok frames := by
    suffices hall : ∀ value ∈ _, ∃ bytes, CoveredValue.frame ext value = .ok bytes by
      obtain ⟨framed, hframed⟩ := exists_mapM_eq_ok hall
      exact ⟨framed.flatten, map_eq_ok.mpr ⟨framed, hframed, rfl⟩⟩
    simp [CoveredValue.frame, hd]
  simp [occurrence, digestBlockFields, hframes, Except.map]

/-- A marker edit passes the check of every binding. -/
lemma MarkerEdit.verifyTokenBinding (h : MarkerEdit accepted out)
    (hunsigned : ∀ r ∈ accepted.toolResults, r.signature = "")
    (hpinned : ∀ r ∈ out.toolResults, ∃ d, ext.toolResultContentFingerprint r.content = .ok d)
    (hself : verifyTokenBinding ext binding accepted accepted = .ok ()) :
    verifyTokenBinding ext binding accepted out = .ok () := by
  obtain ⟨acc, -, hacc, -⟩ := verifyTokenBinding_eq_ok.mp hself
  by_cases hbinding : binding = .toolResult
  · -- the pinned content moves with the markers, but there is no token over it
    subst hbinding
    have hunsigned' : ∀ r ∈ out.toolResults, r.signature = "" := by
      have hsignatures : out.toolResults.map RequestToolResultBlock.signature =
          accepted.toolResults.map RequestToolResultBlock.signature :=
        h.view_eq (fun req => req.toolResults.map RequestToolResultBlock.signature) fun req => by
          rw [toolResults_unmarked, map_map]
          rfl
      intro r hr
      have hmem : r.signature ∈ accepted.toolResults.map RequestToolResultBlock.signature :=
        hsignatures ▸ mem_map_of_mem hr
      obtain ⟨r', hr', heq⟩ := mem_map.mp hmem
      exact heq ▸ hunsigned r' hr'
    obtain ⟨ret, hret⟩ := exists_requestOccurrences_toolResult hpinned
    refine verifyTokenBinding_eq_ok.mpr ⟨acc, ret, hacc, hret, ?_, ?_⟩
    · rw [signedPairs_toolResult hunsigned' hret]
      exact Multiset.zero_le _
    · intro d _ t _
      rw [signedPairs_toolResult hunsigned hacc]
      exact Nat.zero_le _
  · have hret : binding.requestOccurrences ext out = .ok acc := by
      rw [h.view_eq _ (requestOccurrences_unmarked ext hbinding), hacc]
    refine verifyTokenBinding_eq_ok.mpr ⟨acc, acc, hacc, hret, le_rfl, ?_⟩
    intro d hlt
    exact absurd hlt (Nat.lt_irrefl _)

lemma MarkerEdit.verifyTrailingBinding (h : MarkerEdit accepted out)
    (hself : verifyTrailingBinding ext accepted accepted = .ok ()) :
    verifyTrailingBinding ext accepted out = .ok () := by
  have hempty : emptyTrailingCarrier out = emptyTrailingCarrier accepted :=
    h.view_eq _ emptyTrailingCarrier_unmarked
  have hoccurrences : out.messages.mapM (trailingOccurrences ext) =
      accepted.messages.mapM (trailingOccurrences ext) :=
    h.view_eq (fun req => req.messages.mapM (trailingOccurrences ext)) fun req => by
      show (req.messages.map unmarked).mapM _ = _
      rw [mapM_map]
      congr 1
      exact funext (trailingOccurrences_unmarked ext)
  unfold ToranaEdge.verifyTrailingBinding at hself ⊢
  rw [hempty]
  split at hself
  · cases hself
  next hcarrier =>
  rw [if_neg hcarrier]
  obtain ⟨acc, ret, hacc, hret, hle, hstrips⟩ := verifyOccurrences_ok_iff.mp hself
  exact verifyOccurrences_ok_iff.mpr
    ⟨acc, ret, hacc, hoccurrences.trans hret, hle, hstrips⟩

lemma verifyRequestSignatures_of {accepted out : ChatRequest}
    (hbindings : ∀ b, verifyTokenBinding ext b accepted out = .ok ())
    (htrailing : verifyTrailingBinding ext accepted out = .ok ()) :
    verifyRequestSignatures ext accepted out = .ok () := by
  obtain ⟨units, hunits⟩ :
      ∃ units, (all.mapM fun b => verifyTokenBinding ext b accepted out) = .ok units :=
    exists_mapM_eq_ok fun b _ => ⟨(), hbindings b⟩
  exact bind_eq_ok.mpr ⟨units, hunits, htrailing⟩

lemma MarkerEdit.verifyUnconditionalInvariants (h : MarkerEdit accepted out)
    (hunsigned : ∀ r ∈ accepted.toolResults, r.signature = "")
    (hpinned : ∀ r ∈ out.toolResults, ∃ d, ext.toolResultContentFingerprint r.content = .ok d)
    (hself : verifyUnconditionalInvariants ext accepted accepted = .ok ()) :
    verifyUnconditionalInvariants ext accepted out = .ok () := by
  obtain ⟨-, hsignatures⟩ := verifyUnconditionalInvariants_ok hself
  obtain ⟨hbindings, htrailing⟩ := verifyRequestSignatures_ok hsignatures
  have hmeta : out.toranaMetaJson = accepted.toranaMetaJson := h.view_eq _ fun _ => rfl
  have hpaths : out.tools.map ToolDef.namespacePath = accepted.tools.map ToolDef.namespacePath :=
    h.view_eq (fun req => req.tools.map ToolDef.namespacePath) fun req => by
      show (req.tools.map ToolDef.unmarked).map _ = _
      rw [map_map]
      rfl
  refine bind_eq_ok.mpr ⟨(), h.plain, ?_⟩
  rw [if_neg (by simp [hmeta]), if_neg (by simp [sameNamespacedToolTopology, hpaths])]
  exact verifyRequestSignatures_of (fun b => h.verifyTokenBinding hunsigned hpinned (hbindings b))
    (h.verifyTrailingBinding htrailing)

/-- A marker edit moves the cache section and the text section, and no other. -/
lemma MarkerEdit.sections (h : MarkerEdit accepted out)
    (hacc : fingerprintRequestSections ext accepted = .ok acc) :
    fingerprintRequestSections ext out = .ok { acc with
      cacheControl := ext.sha256 (cacheControlPreimage out)
      toolResults := ext.sha256 (toolResultsPreimage out) } := by
  obtain ⟨entries, hentries, content, hcontent, params, hparams, hacc⟩ := bind₃_eq_ok.mp hacc
  cases hacc
  have hentries' := (h.view_eq _ (roleEntries_unmarked ext)).trans hentries
  have hcontent' := (h.view_eq _ (toolContentPreimage_unmarked ext)).trans hcontent
  have hparams' : paramsPreimage ext out = .ok params :=
    (h.view_eq (paramsPreimage ext) fun _ => rfl).trans hparams
  have htools := h.view_eq _ toolsPreimage_unmarked
  have herrors := h.view_eq _ toolErrorsPreimage_unmarked
  have hmodel : modelPreimage out = modelPreimage accepted := h.view_eq _ fun _ => rfl
  refine bind_eq_ok.mpr ⟨entries, hentries', bind_eq_ok.mpr ⟨content, hcontent',
    bind_eq_ok.mpr ⟨params, hparams', ?_⟩⟩⟩
  rw [htools, herrors, hmodel]

lemma toolResults_of_sections {s : RequestSections}
    (h : fingerprintRequestSections ext req = .ok s) :
    s.toolResults = ext.sha256 (toolResultsPreimage req) := by
  obtain ⟨_, -, _, -, _, -, h⟩ := bind₃_eq_ok.mp h
  cases h
  rfl

/-- Sections pass when whatever changed is granted. -/
lemma verifyGrantedSections_of_changed {res : RequestSections}
    (hacc : fingerprintRequestSections ext accepted = .ok acc)
    (hres : fingerprintRequestSections ext out = .ok res)
    (hall : ∀ s ∈ changedSections ext acc res, canWrite s.1 = true) :
    verifyGrantedSections ext accepted out canWrite = .ok () := by
  refine bind_eq_ok.mpr ⟨acc, hacc, bind_eq_ok.mpr ⟨res, hres, ?_⟩⟩
  have hnone : (changedSections ext acc res).find? (fun s => !canWrite s.1) = none := by
    rw [find?_eq_none]
    intro s hs
    simp [hall s hs]
  rw [hnone]

/-- Every section a marker edit changes is granted. -/
lemma MarkerEdit.verifyGrantedSections (h : MarkerEdit accepted out)
    (hcache : canWrite "ir.cache_control.write" = true)
    (htexts : toolTexts out = toolTexts accepted ∨ canWrite "ir.tool_results.write" = true)
    (hself : verifyGrantedSections ext accepted accepted grantNothing = .ok ()) :
    verifyGrantedSections ext accepted out canWrite = .ok () := by
  obtain ⟨acc, hacc, -⟩ := bind_eq_ok.mp hself
  refine verifyGrantedSections_of_changed hacc (h.sections hacc) ?_
  intro s hs
  rcases mem_append.mp hs with hrole | hother
  · -- the role digests are the accepted ones
    have hroles : changedRoles acc { acc with
        cacheControl := ext.sha256 (cacheControlPreimage out)
        toolResults := ext.sha256 (toolResultsPreimage out) } = [] := by
      simp [changedRoles, RequestSections.message]
    rw [hroles] at hrole
    cases hrole
  obtain ⟨entry, hmem, rfl⟩ := mem_map.mp hother
  obtain ⟨hmem, hchanged⟩ := mem_filter.mp hmem
  simp only [otherSections, mem_cons, not_mem_nil, or_false] at hmem
  rcases hmem with rfl | rfl | rfl | rfl | rfl | rfl | rfl
  · simp at hchanged
  · exact hcache
  · rcases htexts with htexts | hgranted
    · -- texts that stay in place hash alike
      simp [toolResults_of_sections hacc, toolResultsPreimage, htexts] at hchanged
    · exact hgranted
  all_goals simp at hchanged

end MarkerEdit

/-- **Markers need the cache grant, and the text grant where a text moves.**  For
an accepted request that passes unchanged and whose tool results carry no
token, a marker edit passes under `ir.cache_control.write` if no tool-result
text changes its absolute place, and in any case under
`ir.tool_results.write` with it.  The plugin SDK is asked for a fingerprint
of every returned tool-result content. -/
theorem verifyRequestMutation_markerEdit (ext : Externals) (accepted out : ChatRequest)
    (canWrite : String → Bool)
    (hself : verifyRequestMutation ext accepted accepted grantNothing = .ok ())
    (hunsigned : ∀ r ∈ accepted.toolResults, r.signature = "") (hedit : MarkerEdit accepted out)
    (hpinned : ∀ r ∈ out.toolResults, ∃ d, ext.toolResultContentFingerprint r.content = .ok d)
    (hcache : canWrite "ir.cache_control.write" = true)
    (htexts : toolTexts out = toolTexts accepted ∨ canWrite "ir.tool_results.write" = true) :
    verifyRequestMutation ext accepted out canWrite = .ok () := by
  obtain ⟨_, hinvariants, hsections⟩ := bind_eq_ok.mp hself
  exact bind_eq_ok.mpr
    ⟨(), hedit.verifyUnconditionalInvariants hunsigned hpinned hinvariants,
      hedit.verifyGrantedSections hcache htexts hsections⟩

/-- `ir.cache_control.write` and nothing else. -/
def grantCacheControl (grant : String) : Bool := grant == "ir.cache_control.write"

/-- A cache breakpoint. -/
def breakpoint : RequestBlock :=
  { kind := some (.cacheBreakpoint { markerJson := utf8 "ephemeral" }) }

/-- A tool result with one text, between the blocks of two lists. -/
def resultBetween (before after : List RequestBlock) : ChatRequest :=
  { model := "m"
    messages := [{ role := "user"
                   blocks := before ++ [{ kind := some (.toolResult
                     { toolCallId := "call_1", toolName := "lookup"
                       content := [{ kind := some (.text { text := "42" }) }] }) }] ++ after }] }

theorem verifyRequestMutation_markerEdit_appended :
    verifyRequestMutation sampleExternals (resultBetween [] []) (resultBetween [] [breakpoint])
      grantCacheControl = .ok () :=
  verifyRequestMutation_markerEdit sampleExternals _ _ _ (by decide +kernel) (by decide)
    ⟨by decide, by decide⟩ (fun _ _ => ⟨_, rfl⟩) (by decide) (.inl (by decide))

/-- A marker before the tool result moves its text to the next block index, and
the cache grant alone is refused. -/
theorem verifyRequestMutation_markerBefore :
    MarkerEdit (resultBetween [] []) (resultBetween [breakpoint] []) ∧
      (∀ r ∈ (resultBetween [] []).toolResults, r.signature = "") ∧
      verifyRequestMutation sampleExternals (resultBetween [] []) (resultBetween [] [])
        grantNothing = .ok () ∧
      verifyRequestMutation sampleExternals (resultBetween [] []) (resultBetween [breakpoint] [])
        grantCacheControl =
          .error "plugin changed tool result text without ir.tool_results.write" :=
  ⟨⟨by decide, by decide⟩, by decide, by decide +kernel, by decide +kernel⟩

end ToranaEdge
