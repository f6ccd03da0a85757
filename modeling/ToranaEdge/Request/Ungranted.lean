import ToranaEdge.Request.Tokens

/-! # A plugin without grants cannot change a request

With no grant, no section may change; the sections determine the request up
to its tokens (`SameViews`), and the signature check lets tokens move only
between occurrences that cover the same content. -/

namespace ToranaEdge

open Framing Attempt List

/-! ## What an ungranted replacement passes -/

/-- **Equal up to tokens**: every declared field agrees, and tokens, with
trailing carriers, are only rearranged among occurrences of one binding with
the same covered content. -/
structure SameUpToTokens (req req' : ChatRequest) : Prop where
  core : req'.core = req.core
  tokens : ∀ b : TokenBinding, (b.tokens req').Perm (b.tokens req)
  trailing : (req'.messages.map Message.trailingToken).Perm
    (req.messages.map Message.trailingToken)

lemma mem_changedRoles {acc res : RequestSections} {role : String}
    (hne : acc.message role ≠ res.message role) : role ∈ changedRoles acc res := by
  by_cases hmem : role ∈ (res.messages ++ acc.messages).map Prod.fst
  · exact mem_mergeSort.mpr (mem_filter.mpr ⟨mem_eraseDups.mpr hmem, by simpa using hne⟩)
  -- a role neither side has reads as zero on both
  have hnone : ∀ s : RequestSections, role ∉ s.messages.map Prod.fst →
      s.message role = zeroDigest := by
    intro s hs
    have hlookup : s.messages.lookup role = none := by
      rw [lookup_eq_none_iff]
      intro p hp
      have hne' : role ≠ p.1 := fun heq => hs (mem_map.mpr ⟨p, hp, heq.symm⟩)
      simpa using hne'
    rw [RequestSections.message, hlookup]
    rfl
  rw [map_append, mem_append, not_or] at hmem
  exact absurd ((hnone acc hmem.2).trans (hnone res hmem.1).symm) hne

lemma message_eq_of_changedRoles {acc res : RequestSections} (h : changedRoles acc res = [])
    (role : String) : acc.message role = res.message role := by
  by_contra hne
  have hmem := mem_changedRoles hne
  rw [h] at hmem
  cases hmem

variable {ext : Externals} {accepted out : ChatRequest}

/-- Without grants no section digest moves. -/
lemma verifyGrantedSections_ungranted
    (h : verifyGrantedSections ext accepted out grantNothing = .ok ()) :
    ∃ acc res, fingerprintRequestSections ext accepted = .ok acc ∧
      fingerprintRequestSections ext out = .ok res ∧
      (∀ role, acc.message role = res.message role) ∧ acc.tools = res.tools ∧
      acc.cacheControl = res.cacheControl ∧ acc.toolResults = res.toolResults ∧
      acc.toolContent = res.toolContent ∧ acc.toolErrors = res.toolErrors ∧
      acc.model = res.model ∧ acc.params = res.params := by
  obtain ⟨acc, hacc, res, hres, h⟩ := bind₂_eq_ok.mp h
  have hnone : changedSections ext acc res = [] := by
    cases hlist : changedSections ext acc res with
    | nil => rfl
    | cons s rest =>
      rw [hlist] at h
      cases h
  rw [changedSections, append_eq_nil_iff, map_eq_nil_iff] at hnone
  refine ⟨acc, res, hacc, hres, message_eq_of_changedRoles hnone.1, ?_⟩
  simpa [otherSections] using hnone.2

/-- Equal section digests are equal views. -/
lemma sameViews_of_sections {req req' : ChatRequest}
    (hcf : CollisionFree ext req req') (hin : InMemory ext req) (hin' : InMemory ext req')
    (h : verifyGrantedSections ext req req' grantNothing = .ok ()) :
    SameViews req req' ∧ req.model = req'.model ∧ req.maxTokens = req'.maxTokens ∧
      req.temperature = req'.temperature ∧ req.topP = req'.topP ∧ req.stream = req'.stream ∧
      req.providerExtensionsJson = req'.providerExtensionsJson ∧
      req.safetySettingsJson = req'.safetySettingsJson ∧ req.stopSequences = req'.stopSequences ∧
      req.outputFormat.map OutputFormat.declared = req'.outputFormat.map OutputFormat.declared := by
  obtain ⟨acc, res, hacc, hres, hroles, htools, hcache, htexts, hcontent, herrors, hmodel,
    hparams⟩ := verifyGrantedSections_ungranted h
  obtain ⟨entries, hentries, content, hcontentOk, params, hparamsOk, hacc⟩ := bind₃_eq_ok.mp hacc
  obtain ⟨entries', hentries', content', hcontentOk', params', hparamsOk', hres⟩ :=
      bind₃_eq_ok.mp hres
  cases hacc
  cases hres
  obtain ⟨hmax, htemp, htop, hstream, hext, hsafe, hstops, hencoded⟩ :=
    (params_eq_iff hcf hin hin' hparamsOk hparamsOk').mp hparams
  obtain ⟨format, hformat, -⟩ := map_eq_ok.mp hparamsOk
  exact ⟨{ roleViews := roleViews_eq hcf hin hin' hentries hentries' hroles
           carriers := (cacheControl_eq_iff hcf hin hin').mp hcache
           texts := (toolResults_eq_iff hcf hin hin').mp htexts
           masked := (toolContent_eq_iff hcf hin hin' hcontentOk hcontentOk').mp hcontent
           errors := (toolErrors_eq_iff hcf hin).mp herrors
           tools := (tools_eq_iff hcf hin hin').mp htools },
    (model_eq_iff hcf hin).mp hmodel, hmax, htemp, htop, hstream, hext, hsafe, hstops,
    map_outputFormat_eq hcf.outputFormats hformat (hencoded ▸ hformat)⟩

lemma verifyRequestSignatures_ok (h : verifyRequestSignatures ext accepted out = .ok ()) :
    (∀ b, verifyTokenBinding ext b accepted out = .ok ()) ∧
      verifyTrailingBinding ext accepted out = .ok () := by
  obtain ⟨units, hunits, htrailing⟩ := bind_eq_ok.mp h
  refine ⟨?_, htrailing⟩
  intro b
  obtain ⟨_, -, hb⟩ := exists_ok_of_mem hunits (show b ∈ TokenBinding.all by
    cases b <;> simp [TokenBinding.all])
  exact hb

lemma verifyUnconditionalInvariants_ok
    (h : verifyUnconditionalInvariants ext accepted out = .ok ()) :
    accepted.toranaMetaJson = out.toranaMetaJson ∧
      verifyRequestSignatures ext accepted out = .ok () := by
  obtain ⟨-, -, h⟩ := bind_eq_ok.mp h
  split at h
  · cases h
  next hmeta =>
  split at h
  · cases h
  · exact ⟨by simpa using hmeta, h⟩

/-! ## The theorem -/

/-- **An ungranted plugin cannot change a request.**  If a replacement passes
verification for a plugin that may write nothing, it equals the accepted
request in every declared field, except that tokens, with trailing carriers,
may have been exchanged between occurrences of one binding that cover the
same content. -/
theorem verifyRequestMutation_ungranted (ext : Externals) (accepted out : ChatRequest)
    (hcf : CollisionFree ext accepted out) (hin : InMemory ext accepted) (hin' : InMemory ext out)
    (hlast : ∀ m ∈ accepted.messages, m.TrailingLast) (hlast' : ∀ m ∈ out.messages, m.TrailingLast)
    (h : verifyRequestMutation ext accepted out grantNothing = .ok ()) :
    SameUpToTokens accepted out := by
  obtain ⟨_, hinvariants, hsections⟩ := bind_eq_ok.mp h
  obtain ⟨hmeta, hsignatures⟩ := verifyUnconditionalInvariants_ok hinvariants
  obtain ⟨htokens, htrailing⟩ := verifyRequestSignatures_ok hsignatures
  obtain ⟨hviews, hmodel, hmax, htemp, htop, hstream, hext, hsafe, hstops, hformat⟩ :=
    sameViews_of_sections hcf hin hin' hsections
  have hmessages := hviews.messages_core hlast hlast'
  exact
    { core := by
        rw [ChatRequest.core, ChatRequest.core, hmessages, hviews.tools_declared, hformat, hmodel,
          hmax, htemp, htop, hstream, hext, hsafe, hstops, hmeta]
      tokens := fun b => TokenBinding.tokens_perm hcf hin hin' hmessages (htokens b)
      trailing := trailingTokens_perm hcf hin hin' hmessages htrailing }

/-- Two blocks with one text; the token stands on the first or on the second. -/
def twinTexts (first second : String) : ChatRequest :=
  { model := "m"
    messages := [{ role := "assistant"
                   blocks := [{ kind := some (.text { text := "hi", signature := first }) },
                     { kind := some (.text { text := "hi", signature := second }) }] }] }

lemma collisionFree_twins :
    CollisionFree sampleExternals (twinTexts "sig" "") (twinTexts "" "sig") where
  strings := by decide +kernel
  nonzero := by decide +kernel
  bodies := by
    intro m hm m' hm' _ _ _
    rw [mem_singleton.mp hm, mem_singleton.mp hm']
    decide
  contents := by
    intro c hc
    cases hc
  outputFormats := by
    intro f hf
    cases hf

lemma inMemory_twins : InMemory sampleExternals (twinTexts "sig" "") ∧
    InMemory sampleExternals (twinTexts "" "sig") := by
  constructor <;> constructor <;> decide +kernel

theorem verifyRequestMutation_ungranted_twins :
    SameUpToTokens (twinTexts "sig" "") (twinTexts "" "sig") :=
  verifyRequestMutation_ungranted sampleExternals _ _ collisionFree_twins
    inMemory_twins.1 inMemory_twins.2 (by decide) (by decide) (by decide +kernel)

end ToranaEdge
