import ToranaEdge.Pipeline.BeforeRequest
import ToranaEdge.Request.HostFacts

/-! # What a whole chain of request plugins keeps

A replacement is verified against the request it replaces; what that ensures and is
transitive holds from the first request of a chain to the last. -/

namespace ToranaEdge

open Attempt List

variable {Topology Engine : Type} (host : Host Topology Engine) (reqID : UInt64)
  (plugins : List LoadedPlugin) (chat : Engine) (headers : HeaderMap) (verdicts : RequestVerdicts)

/-- A run fails, returns the request it was given, or one converted back from a request
that `R` relates to it. -/
def ReturnsRelated (R : ChatRequest → ChatRequest → Prop) : Except String (Engine × Bool) → Prop
  | .error _ => True
  | .ok (out, false) => out = chat
  | .ok (out, true) => ∃ first last converted, host.toPB chat = .ok first ∧ R first last ∧
      host.fromPB last = .ok converted ∧ out = host.withTopology (host.topology chat) converted

section rule

variable {R : ChatRequest → ChatRequest → Prop} (htrans : ∀ a b c, R a b → R b c → R a c)
  (hverified : ∀ lp ∈ plugins, ∀ a b, verifyReplacement host.ext lp a b = .ok () → R a b)
include htrans hverified

lemma chainCalls_related (topo : Topology) (current : ChatRequest) :
    let calls := chainCalls host reqID headers topo plugins current verdicts
    let last := (calls.getLast?.map ChainCall.after).getD current
    (calls.all (fun c => c.step.next.isNone) = true ∧ last = current) ∨ R current last := by
  induction plugins generalizing current verdicts with
  | nil => exact .inl ⟨rfl, rfl⟩
  | cons lp rest ih =>
  rw [forall_mem_cons] at hverified
  unfold chainCalls
  set s := runBeforeRequestPlugin host reqID lp current headers topo verdicts
  -- one plugin leaves the request it was handed, or a verified replacement
  have hafter : (s.next = none ∧ s.next.getD s.current = current) ∨
      R current (s.next.getD s.current) := by
    cases hnext : s.next with
    | none => exact .inl ⟨rfl, runBeforeRequestPlugin_current ..⟩
    | some r => exact .inr (hverified.1 _ _ (runBeforeRequestPlugin_next hnext).2)
  split
  · simpa [ChainCall.after] using hafter
  have hlink : ∀ last, R (s.next.getD s.current) last → R current last := by
    intro last h
    rcases hafter with ⟨-, heq⟩ | hstep
    · rwa [heq] at h
    · exact htrans _ _ _ hstep h
  simp only [getLast?_cons, Option.map_some, Option.getD_some, ← Option.getD_map ChainCall.after,
    all_cons, Bool.and_eq_true, Option.isNone_iff_eq_none]
  rcases ih s.verdicts hverified.2 (s.next.getD s.current) with ⟨hall, hlast⟩ | hrest
  · exact hafter.imp (fun h => ⟨⟨h.1, hall⟩, hlast.trans h.2⟩) fun h => hlast.symm ▸ h
  · exact .inr (hlink _ hrest)

/-- **The chain rule**, for a transitive `R` that every verification ensures. -/
lemma runBeforeRequestTracked_related : ReturnsRelated host chat R
    (runBeforeRequestTracked host reqID plugins chat headers verdicts).1 := by
  unfold runBeforeRequestTracked
  cases hfirst : host.toPB chat with
  | error e => trivial
  | ok first =>
  have hchain := chainCalls_related host reqID plugins headers verdicts htrans hverified
    (host.topology chat) first
  dsimp only
  split
  · trivial
  split
  · rfl
  next hmodified =>
  split
  · trivial
  next converted hconverted =>
    exact ⟨first, _, converted, hfirst, hchain.resolve_left fun h => hmodified h.1, hconverted, rfl⟩

end rule

variable {α : Type} {read : ChatRequest → Except String α} {P : α → α → Prop} {a b c : ChatRequest}

variable (read P) in
/-- Both requests can be read, and `P` relates the readings. -/
def ReadsRelated (first last : ChatRequest) : Prop :=
  ∃ acc res, read first = .ok acc ∧ read last = .ok res ∧ P acc res

lemma ReadsRelated.trans (hP : ∀ x y z, P x y → P y z → P x z) (h : ReadsRelated read P a b)
    (h' : ReadsRelated read P b c) : ReadsRelated read P a c := by
  obtain ⟨x, y, hx, hy, hxy⟩ := h
  obtain ⟨y', z, hy', hz, hyz⟩ := h'
  cases hy.symm.trans hy'
  exact ⟨x, z, hx, hz, hP _ _ _ hxy hyz⟩

/-! ## Host facts and tokens -/

/-- Of the tokens found by `occurrences` none is new, and none covers other content. -/
def TokensKept (occurrences : Message → Except String (List TokenOccurrence)) :
    ChatRequest → ChatRequest → Prop :=
  ReadsRelated (fun req => req.messages.mapM occurrences) fun acc res =>
    signedPairs res.flatten ≤ signedPairs acc.flatten

/-- What no plugin may change, whatever its grants. -/
structure HostFactsKept (ext : Externals) (first last : ChatRequest) : Prop where
  metadata : first.toranaMetaJson = last.toranaMetaJson
  namespaces : sameNamespacedToolTopology first.tools last.tools = true
  unknown : verifyUnknownFields last = .ok ()
  tokens : ∀ b : TokenBinding, TokensKept (b.occurrences ext) first last
  trailing : TokensKept (trailingOccurrences ext) first last

lemma tokensKept_of_verifyOccurrences {name : String}
    {occurrences : Message → Except String (List TokenOccurrence)}
    (h : verifyOccurrences name occurrences a b = .ok ()) : TokensKept occurrences a b := by
  obtain ⟨acc, res, hacc, hres, hle, -⟩ := verifyOccurrences_ok_iff.mp h
  exact ⟨acc, res, hacc, hres, hle⟩

/-- **Host facts survive every chain**, whatever the plugins return and may write: the
metadata, the tools' namespace paths, and that no token is minted, duplicated or
moved over other content. -/
theorem runBeforeRequestTracked_keeps_hostFacts : ReturnsRelated host chat (HostFactsKept host.ext)
      (runBeforeRequestTracked host reqID plugins chat headers verdicts).1 := by
  apply runBeforeRequestTracked_related
  · intro a b c hab hbc
    have hnamespaces := (eq_of_beq hab.namespaces).trans (eq_of_beq hbc.namespaces)
    exact ⟨hab.metadata.trans hbc.metadata, beq_iff_eq.mpr hnamespaces, hbc.unknown,
      fun t => (hab.tokens t).trans (fun _ _ _ h h' => h'.trans h) (hbc.tokens t),
      hab.trailing.trans (fun _ _ _ h h' => h'.trans h) hbc.trailing⟩
  · intro lp _ a b h
    have hinvariants : verifyUnconditionalInvariants host.ext a b = .ok () := by
      unfold verifyReplacement at h
      split at h
      · exact h
      · exact (bind_eq_ok.mp h).choose_spec.1
    obtain ⟨hmeta, hsignatures⟩ := verifyUnconditionalInvariants_ok hinvariants
    obtain ⟨htokens, htrailing⟩ := verifyRequestSignatures_ok hsignatures
    refine ⟨hmeta, sameNamespacedToolTopology_of_invariants hinvariants,
      (bind_eq_ok.mp hinvariants).choose_spec.1,
      fun t => tokensKept_of_verifyOccurrences (htokens t), ?_⟩
    unfold verifyTrailingBinding at htrailing
    split at htrailing
    · cases htrailing
    · exact tokensKept_of_verifyOccurrences htrailing

/-! ## Sections nobody may write -/

/-- The request grants that no plugin of the chain holds. -/
def unheldGrants : List String :=
  allRequestGrants.filter fun grant => plugins.all fun lp => !lp.hasGrant grant

/-- The sections under a grant have the same digests. -/
structure SectionKept (ext : Externals) (grant : String) (acc res : RequestSections) : Prop where
  roles : ∀ role, ext.messageWriteSection role = grant → acc.message role = res.message role
  others : ∀ s ∈ otherSections acc res, s.2.1 = grant → s.1 = false

def SectionsKept (ext : Externals) (grants : List String) (first last : ChatRequest) : Prop :=
  ∀ grant ∈ grants, ReadsRelated (fingerprintRequestSections ext) (SectionKept ext grant) first last

lemma SectionKept.trans {ext : Externals} {grant : String} (a b c : RequestSections)
    (h : SectionKept ext grant a b) (h' : SectionKept ext grant b c) : SectionKept ext grant a c where
  roles role hrole := (h.roles role hrole).trans (h'.roles role hrole)
  others := by
    have hab := h.others
    have hbc := h'.others
    simp only [otherSections, forall_mem_cons, not_mem_nil, false_implies, implies_true, and_true,
      bne_eq_false_iff_eq] at hab hbc ⊢
    grind

lemma sectionKept_of_verifyGrantedSections {ext : Externals} {grant : String}
    {canWrite : String → Bool} (h : verifyGrantedSections ext a b canWrite = .ok ())
    (hgrant : canWrite grant = false) :
    ReadsRelated (fingerprintRequestSections ext) (SectionKept ext grant) a b := by
  obtain ⟨acc, hacc, res, hres, h⟩ := bind₂_eq_ok.mp h
  have hother : ∀ s ∈ changedSections ext acc res, s.1 ≠ grant := by
    rintro s hs rfl
    split at h
    · cases h
    · next hnone => simpa [hgrant] using find?_eq_none.mp hnone s hs
  refine ⟨acc, res, hacc, hres, fun role hrole => ?_, fun s hs hsgrant => ?_⟩
  · by_contra hne
    exact hother _ (mem_append_left _ (mem_map_of_mem (mem_changedRoles hne))) hrole
  · by_contra hne
    have hchanged := mem_filter.mpr ⟨hs, by simpa using hne⟩
    exact hother s.2 (mem_append_right _ (mem_map_of_mem hchanged)) hsgrant

/-- **A section is written by its grant only**, along every chain: where no plugin holds
the grant, the section's digest is the one of the first request. -/
theorem runBeforeRequestTracked_keeps_unheld :
    ReturnsRelated host chat (SectionsKept host.ext (unheldGrants plugins))
      (runBeforeRequestTracked host reqID plugins chat headers verdicts).1 := by
  apply runBeforeRequestTracked_related
  · intro a b c hab hbc grant hgrant
    exact (hab grant hgrant).trans SectionKept.trans (hbc grant hgrant)
  · intro lp hlp a b h grant hgrant
    obtain ⟨hrequest, hunheld⟩ := mem_filter.mp hgrant
    have hlacks : lp.hasGrant grant = false := by simpa using all_eq_true.mp hunheld lp hlp
    unfold verifyReplacement at h
    split at h
    · next hheld =>
      -- a plugin that holds every request grant holds this one
      rw [all_eq_true.mp hheld grant hrequest] at hlacks
      cases hlacks
    · obtain ⟨-, -, hsections⟩ := bind_eq_ok.mp h
      exact sectionKept_of_verifyGrantedSections hsections hlacks

end ToranaEdge
