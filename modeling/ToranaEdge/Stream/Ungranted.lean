import ToranaEdge.Stream.Policy
import ToranaEdge.Stream.ToolBlocks
import ToranaEdge.Stream.Verify

/-! # A stream plugin without grants

The policy walk compares everything but the tokens, and the signature
verifier compares the tokens through what they cover.  Neither is enough
alone.  Together they pin the stream: without grants the returned events are
equal to the accepted ones, as `proto.Equal` compares them, and only the tokens of
tool blocks with the same covered content can trade places. -/

namespace ToranaEdge

open Policy Reserve List Align ScanState Function StreamEvent

/-! ## The walks that read neither tokens nor unknown bytes -/

/-- The event without its tokens and its unknown bytes. -/
def bareEvent (ev : StreamEvent) : StreamEvent := stripEvent (blankEvent ev)

variable {pb : Protobuf}

/-- Equal events, but for the tokens, are the same without their unknown bytes. -/
lemma map_bareEvent_eq {accepted returned : List StreamEvent}
    (h : Forall₂ (Kept pb) accepted returned) :
    accepted.map bareEvent = returned.map bareEvent :=
  map_eq_iff_forall₂.mpr (h.imp fun _ _ hkept => stripEvent_eq_of_eventEqual hkept.blank)

namespace AcceptedState

lemma step_bareEvent (v : AcceptedState) (i : Nat) (ev : StreamEvent) :
    v.step i (bareEvent ev) = v.step i ev := by
  obtain ⟨arm, unknown⟩ := ev
  rcases arm with _ | arm
  · rfl
  cases arm with
  | contentBlockStart start =>
    obtain ⟨index, block, unknown⟩ := start
    rcases block with _ | (_ | _ | _ | _) <;> rfl
  | _ => rfl

lemma run_bareEvent (v : AcceptedState) (i : Nat) (events : List StreamEvent) :
    v.run i (events.map bareEvent) = v.run i events := by
  induction events generalizing v i with
  | nil => rfl
  | cons ev events ih =>
  rw [map_cons, run, run, step_bareEvent]
  cases v.step i ev with
  | error msg => rfl
  | ok v' => exact ih v' (i + 1)

end AcceptedState

variable {xs ys : List StreamEvent}

/-- Validation depends on neither. -/
lemma validateAcceptedStream_congr (h : xs.map bareEvent = ys.map bareEvent) :
    validateAcceptedStream xs = validateAcceptedStream ys := by
  unfold validateAcceptedStream
  rw [← AcceptedState.run_bareEvent _ _ xs, ← AcceptedState.run_bareEvent _ _ ys, h]

def ToolCallScope.blank (b : ToolCallScope) : ToolCallScope := { b with signature := "" }

def SigBinding.blank (b : SigBinding) : SigBinding := { b with signature := "" }

namespace ScanState

/-- The scan state without the tokens it has collected. -/
def blank (s : ScanState) : ScanState :=
  { s with openTools := s.openTools.map ToolCallScope.blank
           toolScopes := s.toolScopes.map ToolCallScope.blank
           bindings := s.bindings.map SigBinding.blank }

section

variable (s : ScanState)

lemma blank_closeSpan : s.closeSpan.blank = s.blank.closeSpan := by
  unfold closeSpan
  have hopen : s.blank.spanOpen = s.spanOpen := rfl
  rw [hopen]
  split <;> rfl

lemma blank_contentBlockStart (start : ContentBlockStart) :
    (s.contentBlockStart start).blank = s.blank.contentBlockStart (blankStart start) := by
  obtain ⟨index, block, unknown⟩ := start
  have hclose := blank_closeSpan s
  unfold contentBlockStart
  rw [← hclose]
  rcases block with _ | (_ | _ | call | _)
  · rfl
  · rfl
  · rfl
  · have hany : (s.closeSpan.blank.openTools.any fun b => b.index == index) =
        s.closeSpan.openTools.any fun b => b.index == index := by
      simp [blank, comp_def, ToolCallScope.blank]
    simp only [blankStart, Option.map_some, blankBlock, hany]
    split
    · rfl
    · simp [blank, blankCall, ToolCallScope.blank]
  · rfl

lemma blank_contentBlockStop (index : Int32) :
    (s.contentBlockStop index).blank = s.blank.contentBlockStop index := by
  have hfind : (s.blank.openTools.find? fun b => b.index == index) =
      (s.openTools.find? fun b => b.index == index).map ToolCallScope.blank := by
    simp [blank, comp_def, ToolCallScope.blank]
  unfold contentBlockStop
  rw [hfind]
  cases s.openTools.find? fun b => b.index == index with
  | some b =>
    simp [blank, filter_map, comp_def, ToolCallScope.blank]
  | none =>
  simp only [Option.map_none]
  have hcond : (s.blank.blockOpen && s.blank.blockText && !s.blank.blockSawSpan &&
      !s.blank.spanOpen) = (s.blockOpen && s.blockText && !s.blockSawSpan && !s.spanOpen) := rfl
  rw [hcond]
  split
  · rfl
  · rw [← blank_closeSpan]
    rfl

lemma blank_toolCallDelta (delta : ToolCallDelta) :
    (s.toolCallDelta delta).blank = s.blank.toolCallDelta delta := by
  simp only [toolCallDelta, blank, map_map]
  congr 1
  apply map_congr_left
  intro b _
  simp only [comp_apply]
  split <;> simp_all [ToolCallScope.blank]

lemma blank_signatureDelta (token : String) :
    (s.signatureDelta token).blank = s.blank.signatureDelta "" := by
  have hbinding : (s.bindingOf token).blank = s.blank.bindingOf "" := by
    unfold bindingOf
    simp only [blank, isEmpty_map]
    split
    · rfl
    · split <;> rfl
  unfold signatureDelta
  rw [← hbinding]
  simp only [show s.blank.spanOpen = s.spanOpen from rfl,
    show s.blank.blockOpen = s.blockOpen from rfl, show s.blank.blockText = s.blockText from rfl]
  split
  · split
    · simp [blank, materializeSpan, resetSpanState]
    · rw [← blank_closeSpan]
      simp [blank]
  · simp [blank]

/-- **One event**: the scan reads no token. -/
theorem blank_step (ev : StreamEvent) : (s.step ev).blank = s.blank.step (blankEvent ev) := by
  have hignores : s.blank.ignoresContent = s.ignoresContent := by
    simp [ignoresContent, blank]
  obtain ⟨arm, unknown⟩ := ev
  rcases arm with _ | arm
  · rfl
  cases arm with
  | contentBlockStart start => exact blank_contentBlockStart s start
  | contentBlockStop stop => exact blank_contentBlockStop s stop.index
  | toolCallDelta delta => exact blank_toolCallDelta s delta
  | signatureDelta token => exact blank_signatureDelta s token
  | textDelta text =>
    show (s.textDelta text).blank = s.blank.textDelta text
    unfold textDelta
    rw [hignores]
    split <;> rfl
  | thinkingDelta text =>
    show (s.thinkingDelta text).blank = s.blank.thinkingDelta text
    unfold thinkingDelta
    rw [hignores]
    split <;> rfl
  | _ => rfl

lemma step_stripEvent (ev : StreamEvent) : s.step (stripEvent ev) = s.step ev := by
  obtain ⟨arm, unknown⟩ := ev
  rcases arm with _ | arm
  · rfl
  cases arm with
  | contentBlockStart start =>
    obtain ⟨index, block, unknown⟩ := start
    rcases block with _ | (_ | _ | _ | _) <;> rfl
  | _ => rfl

lemma blank_run (events : List StreamEvent) :
    (s.run events).blank = s.blank.run (events.map bareEvent) := by
  induction events generalizing s with
  | nil => rfl
  | cons ev events ih =>
    show ((s.step ev).run events).blank = (s.blank.step (bareEvent ev)).run (events.map bareEvent)
    rw [ih, blank_step, bareEvent, step_stripEvent]

end

end ScanState

/-- Streams that differ in tokens and unknown bytes only have the same scopes and
bindings but for the tokens. -/
lemma scan_blank_congr (h : xs.map bareEvent = ys.map bareEvent) :
    (scanStreamSignatures xs).toolScopes.map ToolCallScope.blank =
        (scanStreamSignatures ys).toolScopes.map ToolCallScope.blank ∧
      (scanStreamSignatures xs).bindings.map SigBinding.blank =
        (scanStreamSignatures ys).bindings.map SigBinding.blank := by
  have hrun : (run {} xs).closeSpan.blank = (run {} ys).closeSpan.blank := by
    rw [blank_closeSpan, blank_closeSpan, blank_run, blank_run, h]
  exact ⟨congrArg toolScopes hrun, congrArg bindings hrun⟩

/-! ## Tool tokens -/

lemma ToolCallScope.of_blank_eq {a b : ToolCallScope} (h : a.blank = b.blank) :
    a.index = b.index ∧ a.covered = b.covered := by
  have hindex : a.blank.index = b.blank.index := by rw [h]
  have hcovered : a.blank.covered = b.blank.covered := by rw [h]
  exact ⟨hindex, hcovered⟩

section

variable {cls : SignatureClassifier} {accepted returned : List ToolCallScope}
  (hblank : accepted.map ToolCallScope.blank = returned.map ToolCallScope.blank)
  (hacc : (accepted.map ToolCallScope.index).Nodup)
  (h : verifyToolScopes cls accepted returned grantNothing = .ok ())
include hblank hacc h

/-- Without grants every returned scope is reproduced: one that is not would sit
at the index of an accepted scope with its own content. -/
lemma unreproduced_eq_nil : unreproduced returned accepted = [] := by
  have haligned := (map_eq_iff_forall₂.mp hblank).imp fun _ _ => ToolCallScope.of_blank_eq
  have hindices : accepted.map ToolCallScope.index = returned.map ToolCallScope.index :=
    map_eq_iff_forall₂.mpr (haligned.imp fun _ _ hab => hab.1)
  have haccepts := (verifyToolScopes_ok_iff cls grantNothing hacc (hindices ▸ hacc)).mp h
  rw [eq_nil_iff_forall_not_mem]
  intro r hr
  -- the accepted scope at the place of `r`
  have hmem : r ∈ returned := (unreproduced_sublist returned accepted).subset hr
  obtain ⟨a, ha, hindex, hcovered⟩ := exists_of_mem_right haligned hmem
  by_cases hseat : ∃ b ∈ unreproduced accepted returned, b.index = r.index
  · obtain ⟨b, hb, hbi⟩ := hseat
    have hbmem : b ∈ accepted := (unreproduced_sublist accepted returned).subset hb
    have hsame : b = a := inj_on_of_nodup_map hacc hbmem ha (hbi.trans hindex.symm)
    exact haccepts.rewritten r hr b hb hbi (hsame ▸ hcovered)
  obtain ⟨pre, post, hsplit⟩ := append_of_mem hr
  have hinvented := haccepts.invented pre r post hsplit fun b hb hbi => hseat ⟨b, hb, hbi⟩
  exact absurd hinvented.1 (by decide)

/-- Tokens of tool scopes are rearranged within one covered content. -/
lemma facts_perm : (returned.map fun b => (b.signature, b.covered)).Perm
      (accepted.map fun b => (b.signature, b.covered)) := by
  have hnil := unreproduced_eq_nil hblank hacc h
  have hle : keys ToolCallScope.facts returned ≤ keys ToolCallScope.facts accepted := by
    apply keys_le_of_leftover_unkeyed
    intro b hb
    rw [← sameFacts_eq_hits] at hb
    have hb : b ∈ unreproduced returned accepted := hb
    rw [hnil] at hb
    cases hb
  have hkeys : ∀ scopes : List ToolCallScope, keys ToolCallScope.facts scopes =
      ↑(scopes.map fun b => (b.signature, b.covered)) := by
    intro scopes
    rw [← filterMap_eq_map]
    rfl
  have hlen := congrArg length hblank
  rw [length_map] at hlen
  rw [hkeys, hkeys] at hle
  rw [← Multiset.coe_eq_coe]
  apply Multiset.eq_of_le_of_card_le hle
  simp [hlen]

end

/-! ## Block tokens -/

/-- The token of a `signature_delta`. -/
def signatureToken (ev : StreamEvent) : Option String :=
  match ev.event with
  | some (.signatureDelta token) => some token
  | _ => none

lemma bindingOf_signature (s : ScanState) (token : String) :
    (s.bindingOf token).signature = token := by
  unfold bindingOf
  split
  · rfl
  · split <;> rfl

lemma run_tokens (s : ScanState) (events : List StreamEvent) :
    (s.run events).bindings.map SigBinding.signature =
      s.bindings.map SigBinding.signature ++ events.filterMap signatureToken := by
  induction events generalizing s with
  | nil => simp [run]
  | cons ev events ih =>
  show ((s.step ev).run events).bindings.map SigBinding.signature = _
  rw [ih]
  by_cases hsig : ∃ token, ev.event = some (.signatureDelta token)
  · obtain ⟨token, hev⟩ := hsig
    have hstep : s.step ev = s.signatureDelta token := by simp [step, hev]
    have htoken : signatureToken ev = some token := by simp [signatureToken, hev]
    rw [hstep, signatureDelta_bindings, filterMap_cons_some htoken]
    simp [bindingOf_signature]
  have hnone : signatureToken ev = none := by
    unfold signatureToken
    split
    · next token hev => exact absurd ⟨token, hev⟩ hsig
    · rfl
  rw [(extends_step fun token hev => hsig ⟨token, hev⟩).bindings, filterMap_cons_none hnone]

/-- The bindings carry the tokens of the stream, in order. -/
lemma scanStreamSignatures_tokens (events : List StreamEvent) :
    (scanStreamSignatures events).bindings.map SigBinding.signature =
      events.filterMap signatureToken := by
  show (run {} events).closeSpan.bindings.map SigBinding.signature = _
  rw [(closeSpan_frame _).2.2.2.2.2.2.2, run_tokens]
  rfl

/-- The content of an occurrence without a token. -/
def SigBinding.bare (b : SigBinding) : Option TypedContent :=
  if b.signature = "" then some b.content else none

open SigBinding (token bare content)

/-- Signed and unsigned occurrences together are all occurrences. -/
lemma contents_split (bs : List SigBinding) :
    (keys token bs).map Prod.snd + keys bare bs = ↑(bs.map content) := by
  have hsplit : (keys token bs).map Prod.snd + (keys bare bs).map id = ↑(bs.map content) := by
    apply map_keys_add_map_keys
    intro b _
    by_cases hb : b.signature = ""
    · exact .inr ⟨b.content, by simp [token, hb], by simp [bare, hb], rfl⟩
    · exact .inl ⟨(b.signature, b.content), by simp [token, hb], by simp [bare, hb], rfl⟩
  rwa [Multiset.map_id] at hsplit

variable {canWrite : String → Bool}

/-- An unmatched token over the content of an unused marker is dropped. -/
lemma settleUnmatched_cons_marker {kind : SigBindingKind} {rv : StreamSignatureView}
    {remaining : ContentCounts} {twins : List TypedContent} {markers : Pool SigBinding}
    {a : SigBinding} {rest : List SigBinding} (h : ∃ m ∈ free markers, m.content = a.content) :
    settleUnmatched kind rv canWrite remaining twins markers (a :: rest) ≠ .ok () := by
  intro hok
  have hany : ((free markers).any fun m => m.content == a.content) = true := by simpa using h
  unfold settleUnmatched settleBinding at hok
  rw [hany] at hok
  by_cases hsurvives : contentSurvives kind rv remaining a = true
  · simp at hok
  · simp at hok

/-- **Block tokens are kept.**  If the occurrences of a kind differ in tokens
only, an accepted verdict leaves no token out: the first one left out would
meet a marker over its own content. -/
theorem tokens_eq_of_verifyBindingKind {kind : SigBindingKind} {av rv : StreamSignatureView}
    (hblank : (av.ofKind kind).map SigBinding.blank = (rv.ofKind kind).map SigBinding.blank)
    (h : verifyBindingKind kind av rv canWrite = .ok ()) :
    keys token (rv.ofKind kind) = keys token (av.ofKind kind) := by
  have hle := tokens_le_of_verifyBindingKind h
  have hcontent : (av.ofKind kind).map content = (rv.ofKind kind).map content := by
    have hmap := congrArg (map content) hblank
    rwa [map_map, map_map] at hmap
  have hbalance : (keys token (av.ofKind kind)).map Prod.snd +
      keys bare (av.ofKind kind) = (keys token (rv.ofKind kind)).map Prod.snd +
        keys bare (rv.ofKind kind) := by
    rw [contents_split, contents_split, hcontent]
  have hfree : free (exactBindings kind av rv).1 =
      leftover (hits token token) (av.ofKind kind) (rv.ofKind kind) := by
    rw [exactBindings, free_exactPass, free_fresh, sameToken_eq_hits]
  have hsettle := (verifyBindingKind_ok h).2
  apply le_antisymm hle
  apply keys_le_of_leftover_unkeyed
  rw [← hfree]
  cases hleft : (free (exactBindings kind av rv).1).filter fun a => a.signature != "" with
  | nil =>
    intro a ha
    rw [SigBinding.token_eq_none]
    simpa using filter_eq_nil_iff.mp hleft a ha
  | cons a rest =>
  exfalso
  have hmem : a ∈ (free (exactBindings kind av rv).1).filter fun a => a.signature != "" := by
    rw [hleft]
    exact mem_cons_self
  obtain ⟨ha, hsigned⟩ := mem_filter.mp hmem
  have hsigned : a.signature ≠ "" := by simpa using hsigned
  have htoken : a.token = some (a.signature, a.content) := by simp [token, hsigned]
  rw [hfree] at ha
  have hlost := exists_mem_leftover_iff.mp ⟨a, ha, htoken⟩
  rw [← count_keys, ← count_keys] at hlost
  -- its content is returned bare, as a marker
  have hbare := Nat.lt_of_le_of_lt (Nat.zero_le _) (bare_count_lt hbalance hle hlost)
  obtain ⟨m, hm, hmbare⟩ := mem_filterMap.mp (Multiset.count_pos.mp hbare)
  have hmarker : m.signature = "" ∧ m.content = a.content := by
    unfold bare at hmbare
    split at hmbare
    · next hempty => exact ⟨hempty, Option.some.inj hmbare⟩
    · cases hmbare
  rw [hleft] at hsettle
  refine settleUnmatched_cons_marker ⟨m, ?_, hmarker.2⟩ hsettle
  rw [free_fresh]
  exact mem_filter.mpr ⟨hm, by simp [hmarker.1]⟩

/-- The tokens of the bound occurrences, kind by kind. -/
lemma tokens_split {v : StreamSignatureView} (h : ∀ b ∈ v.bindings, b.kind ≠ .unbound) :
    keys token v.bindings = keys token (v.ofKind .current) + keys token (v.ofKind .trailing) := by
  have htrailing : v.ofKind .trailing = v.bindings.filter fun b => !(b.kind == .current) := by
    apply filter_congr
    intro b hb
    have hbound := h b hb
    cases hkind : b.kind with
    | current | trailing => rfl
    | unbound => exact absurd hkind hbound
  have hperm := filter_append_perm (fun b : SigBinding => b.kind == .current) v.bindings
  have hkeys := hperm.filterMap token
  rw [filterMap_append] at hkeys
  unfold Reserve.keys
  rw [htrailing, Multiset.coe_add, Multiset.coe_eq_coe]
  exact hkeys.symm

variable {accepted returned : List StreamEvent}

/-- **The tokens of the whole stream** are rearranged, if anything. -/
theorem signatureTokens_perm (hbare : accepted.map bareEvent = returned.map bareEvent)
    (h : verifySignatureDeltaBindings (scanStreamSignatures accepted)
      (scanStreamSignatures returned) canWrite = .ok ()) :
    (accepted.filterMap signatureToken).Perm (returned.filterMap signatureToken) := by
  have hbindings := (scan_blank_congr hbare).2
  have hof : ∀ kind, ((scanStreamSignatures accepted).ofKind kind).map SigBinding.blank =
      ((scanStreamSignatures returned).ofKind kind).map SigBinding.blank := by
    intro kind
    have hfilter := congrArg (filter fun b => b.kind == kind) hbindings
    rw [filter_map, filter_map] at hfilter
    exact hfilter
  obtain ⟨hcur, htrail, hbound⟩ := verifySignatureDeltaBindings_ok h
  have hboundA : ∀ b ∈ (scanStreamSignatures accepted).bindings, b.kind ≠ .unbound := by
    intro b hb hkind
    obtain ⟨r, hr, heq⟩ := exists_of_mem_right (map_eq_iff_forall₂.mp hbindings.symm) hb
    have hsame : r.blank.kind = b.blank.kind := by rw [heq]
    exact hbound r hr (hsame.trans hkind)
  have htokens : keys token (scanStreamSignatures accepted).bindings =
      keys token (scanStreamSignatures returned).bindings := by
    rw [tokens_split hboundA, tokens_split hbound, tokens_eq_of_verifyBindingKind (hof _) hcur,
      tokens_eq_of_verifyBindingKind (hof _) htrail]
  rw [← scanStreamSignatures_tokens, ← scanStreamSignatures_tokens]
  -- signed tokens agree by content, and as many are empty on both sides
  have hsigned : ∀ bs : List SigBinding,
      (bs.map SigBinding.signature).filter (fun t => !decide (t = "")) =
        (bs.filterMap token).map Prod.fst := by
    intro bs
    induction bs with
    | nil => rfl
    | cons b bs ih =>
      by_cases hb : b.signature = "" <;> simpa [token, hb] using ih
  apply perm_of_filter_ne ""
  · have hlen := congrArg length hbindings
    simpa using hlen
  · rw [hsigned, hsigned]
    exact (Multiset.coe_eq_coe.mp htokens).map _

/-! ## The whole stream -/

/-- The event without the token of the tool block it starts. -/
def withoutToolToken (ev : StreamEvent) : StreamEvent :=
  match ev.event with
  | some (.contentBlockStart start) =>
    { ev with event := some (.contentBlockStart (blankStart start)) }
  | _ => ev

/-- The returned stream is the accepted one, event for event and field for field,
but for tool tokens that trade places between blocks of one covered content.
Unknown bytes hold the same set of unknown fields. -/
structure SameUpToToolTokens (pb : Protobuf) (accepted returned : List StreamEvent) : Prop where
  events : Forall₂ (fun a r => eventEqual pb (withoutToolToken a) (withoutToolToken r) = true)
    accepted returned
  tokens : ((toolBlocks returned).map fun b => (b.signature, b.covered)).Perm
    ((toolBlocks accepted).map fun b => (b.signature, b.covered))

lemma isSome_signatureToken {a r : StreamEvent} (h : bareEvent a = bareEvent r) :
    (signatureToken a).isSome = (signatureToken r).isSome := by
  have hbare : ∀ ev, (signatureToken (bareEvent ev)).isSome = (signatureToken ev).isSome := by
    rintro ⟨arm, unknown⟩
    rcases arm with _ | arm
    · rfl
    · cases arm <;> rfl
  rw [← hbare a, ← hbare r, h]

/-- Equal events carry one token. -/
lemma signatureToken_eq_of_eventEqual {a r : StreamEvent} (h : eventEqual pb a r = true) :
    signatureToken a = signatureToken r := by
  have hstrip : ∀ ev, signatureToken (stripEvent ev) = signatureToken ev := by
    rintro ⟨arm, unknown⟩
    rcases arm with _ | arm
    · rfl
    · cases arm <;> rfl
  rw [← hstrip a, ← hstrip r, stripEvent_eq_of_eventEqual h]

lemma withoutToolToken_of_none {ev : StreamEvent} (h : signatureToken ev = none) :
    withoutToolToken ev = blankEvent ev := by
  obtain ⟨arm, unknown⟩ := ev
  rcases arm with _ | arm
  · rfl
  · cases arm <;> first | rfl | cases h

lemma event_of_signatureToken {ev : StreamEvent} {token : String}
    (h : signatureToken ev = some token) : ev.event = some (.signatureDelta token) := by
  unfold signatureToken at h
  split at h <;> cases h
  next t hev => exact hev

/-- Blanked events and block tokens make up all but the tool tokens. -/
lemma eventEqual_withoutToolToken {a r : StreamEvent}
    (hblank : eventEqual pb (blankEvent a) (blankEvent r) = true)
    (htoken : signatureToken a = signatureToken r) :
    eventEqual pb (withoutToolToken a) (withoutToolToken r) = true := by
  cases ha : signatureToken a with
  | none =>
    rwa [withoutToolToken_of_none ha, withoutToolToken_of_none (htoken ▸ ha)]
  | some token =>
  -- a token that is kept: the events can differ in their unknown bytes only
  have hva := event_of_signatureToken ha
  have hvr := event_of_signatureToken (htoken ▸ ha)
  have hunknown : pb.equalUnknown a.unknown r.unknown = true := (Message.equal_iff.mp hblank).2.1
  have hself : ∀ ev : StreamEvent, ev.event = some (.signatureDelta token) →
      withoutToolToken ev = ev := by
    intro ev hev
    simp [withoutToolToken, hev]
  rw [hself a hva, hself r hvr]
  exact (eventEqual_iff_of_event (hva.trans hvr.symm)).mpr hunknown

/-- The `signature_delta` events agree in their unknown bytes; usually they have
none. -/
def UniformSignatures (events : List StreamEvent) : Prop :=
  ∀ a ∈ events, ∀ b ∈ events, (signatureToken a).isSome = true → (signatureToken b).isSome = true →
    a.unknown = b.unknown

/-- No block token moved: a moved one would be an exact match at another place. -/
lemma signatureTokens_eq (huniform : UniformSignatures accepted)
    (hkept : Forall₂ (Kept pb) accepted returned)
    (hperm : (accepted.filterMap signatureToken).Perm (returned.filterMap signatureToken))
    (hunmoved : Unmoved pb accepted returned) :
    accepted.filterMap signatureToken = returned.filterMap signatureToken := by
  have hplaces := forall₂_filterMap (fun a r (h : Kept pb a r) =>
    isSome_signatureToken (stripEvent_eq_of_eventEqual h.blank)) hkept
  rw [forall₂_iff_zip] at hplaces
  apply eq_of_perm_of_disjoint hperm
  intro p hp hpne q hq hqne heq
  obtain ⟨n, a, r, ha, hr, hkeptP, hatoken, hrtoken⟩ := hplaces.2 hp
  obtain ⟨m, a', r', ha', hr', hkeptQ, hatoken', hrtoken'⟩ := hplaces.2 hq
  -- neither place is reserved: equal events carry one token
  have hnew : eventEqual pb a r ≠ true := by
    intro hequal
    have htoken := signatureToken_eq_of_eventEqual hequal
    rw [hatoken, hrtoken] at htoken
    exact hpne (Option.some.inj htoken)
  have hnew' : eventEqual pb a' r' ≠ true := by
    intro hequal
    have htoken := signatureToken_eq_of_eventEqual hequal
    rw [hatoken', hrtoken'] at htoken
    exact hqne (Option.some.inj htoken)
  -- the accepted event at `n` is the returned one at `m`
  have hunknown : a.unknown = r'.unknown := by
    rw [← hkeptQ.unknown.resolve_left hnew']
    exact huniform a (mem_of_getElem? ha) a' (mem_of_getElem? ha') (by simp [hatoken])
      (by simp [hatoken'])
  have hevent : a = r' := by
    have hva := event_of_signatureToken hatoken
    have hvr := event_of_signatureToken hrtoken'
    rw [← heq, ← hva] at hvr
    obtain ⟨arm, unknown⟩ := a
    cases hvr
    cases hunknown
    rfl
  rcases hunmoved n m a ha (hevent ▸ hr') with hfixed | hfixed
  · exact hnew ((samePosition_eq ha hr).symm.trans hfixed)
  · exact hnew' ((samePosition_eq ha' hr').symm.trans hfixed)

/-- An error event is an error without its tokens. -/
lemma no_error_congr (h : xs.map bareEvent = ys.map bareEvent)
    (hxs : ∀ ev ∈ xs, ∀ e, ev.event ≠ some (.error e)) :
    ∀ ev ∈ ys, ∀ e, ev.event ≠ some (.error e) := by
  intro ev hev e herror
  obtain ⟨a, ha, heq⟩ := exists_of_mem_right (map_eq_iff_forall₂.mp h) hev
  obtain ⟨arm, unknown⟩ := a
  obtain ⟨arm', unknown'⟩ := ev
  cases herror
  rcases arm with _ | arm
  · cases heq
  · cases arm <;> first | cases heq | exact hxs _ ha _ rfl

/-- **An ungranted stream plugin changes nothing** but which of several tool
blocks with the same covered content carries which token. -/
theorem verifyStream_ungranted (cls : SignatureClassifier) (reg : Registry)
    (hcovers : CoversStream reg) (harms : ChargesArms reg) (pb : Protobuf)
    (accepted returned : List StreamEvent)
    (hnone : ∀ ev ∈ accepted, ∀ e, ev.event ≠ some (.error e))
    (huniform : UniformSignatures accepted)
    (hsignatures : verifyStream cls accepted returned (some grantNothing) = .ok ())
    (hpolicy : verifyStreamPolicy reg pb accepted returned (some grantNothing) = .ok ()) :
    SameUpToToolTokens pb accepted returned := by
  obtain ⟨hkept, hunmoved⟩ := verifyStreamPolicy_ungranted hcovers harms hpolicy
  have hbare := map_bareEvent_eq hkept
  obtain ⟨hvalid, hverify⟩ := verifyStream_ok hsignatures
  obtain ⟨htools, hbindings⟩ := verifySignatures_ok hverify
  constructor
  · -- all but the tokens by the policy walk, block tokens by the bindings
    have htokens := signatureTokens_eq huniform hkept (signatureTokens_perm hbare hbindings)
      hunmoved
    have hpick : ∀ a r, Kept pb a r → (signatureToken a).isSome = (signatureToken r).isSome :=
      fun _ _ h => isSome_signatureToken (stripEvent_eq_of_eventEqual h.blank)
    have haligned := forall₂_and_of_filterMap (f := id) hpick hkept (congrArg (map id) htokens)
    refine haligned.imp ?_
    intro a r h
    exact eventEqual_withoutToolToken h.1.blank (by simpa using h.2)
  · -- the returned stream validates too, so its scopes are its blocks
    obtain ⟨hblocksA, hdistinct⟩ := toolScopes_perm_toolBlocks hvalid hnone
    obtain ⟨hblocksR, -⟩ := toolScopes_perm_toolBlocks
      (validateAcceptedStream_congr hbare ▸ hvalid) (no_error_congr hbare hnone)
    have hnodup : ((scanStreamSignatures accepted).toolScopes.map ToolCallScope.index).Nodup :=
      (hblocksA.map _).nodup_iff.mpr hdistinct
    have hfacts := facts_perm (scan_blank_congr hbare).1 hnodup htools
    exact ((hblocksR.symm.map _).trans hfacts).trans (hblocksA.map _)

def assistantGrant : String := "ir.messages.write.assistant"

/-- A registry that answers as the tests of the repository pin it: the content of a
block is the assistant's, its boundaries are topology, and what frames the message
is the host's. -/
def streamRegistry : Registry where
  registered _ := true
  fieldNames name := (descriptor name).map Prod.fst
  policy name field :=
    if tokenField name field then .boundSignature
    else match name, field with
      | .streamEvent, "text_delta" | .streamEvent, "thinking_delta" | .toolCallRef, _ =>
        .section assistantGrant
      | .toolCallDelta, "arguments_delta" | .toolCallDelta, "input_text_delta" =>
        .section assistantGrant
      | .streamEvent, "message_start" | .streamEvent, "message_stop" | .streamEvent, "usage"
      | .streamEvent, "error" => .hostOwned
      | .messageStart, _ | .messageStop, _ | .usage, _ | .streamError, _ | .providerBlock, _ =>
        .hostOwned
      | _, _ => .topology streamWriteGrant
  topologySection := streamWriteGrant

lemma streamRegistry_coversStream : CoversStream streamRegistry where
  registered _ := rfl
  named _ _ hf := mem_map_of_mem hf
  leaves name f _ _ := by
    unfold streamRegistry
    dsimp only
    split
    · exact .inr rfl
    · left
      split <;> rfl

lemma streamRegistry_chargesArms : ChargesArms streamRegistry where
  tokens name field h := by
    by_contra htoken
    unfold streamRegistry at h
    dsimp only at h
    rw [if_neg htoken] at h
    split at h <;> cases h
  arms := by decide

/-- Two tool calls with one covered content, and a signed text block. -/
def twinCalls (first second : String) : List StreamEvent :=
  [.startTool 0 { id := "call_1", name := "lookup", signature := first }, .toolDelta 0 "x", .stop 0,
    .startTool 1 { id := "call_1", name := "lookup", signature := second }, .toolDelta 1 "x", .stop 1,
    .startText 2, .textDelta "hi", .signatureDelta "text-sig", .stop 2]

/-- Unknown fields are compared in any order, as the bytes of the streams below need
it, and the wire bytes are the arm. -/
def sampleProtobuf : Protobuf where
  marshal ev := .ok (utf8 (eventArm ev))
  equalUnknown x y := x.isPerm y
  equivalence := by
    simp only [isPerm_iff]
    exact ⟨.refl, .symm, .trans⟩

/-- A usage report with fields of a later schema. -/
def laterUsage (unknown : Bytes) : StreamEvent :=
  { event := some (.usage { inputTokens := 3 }), unknown }

/-- Fields 100 and 101, in this order. -/
def inOrder : Bytes := [0xA0, 0x06, 0x01, 0xA8, 0x06, 0x01]

def outOfOrder : Bytes := [0xA8, 0x06, 0x01, 0xA0, 0x06, 0x01]

/-- The twins trade their tokens, and two unknown fields trade places. -/
theorem verifyStream_ungranted_twins :
    SameUpToToolTokens sampleProtobuf (twinCalls "sig-A" "sig-B" ++ [laterUsage inOrder])
      (twinCalls "sig-B" "sig-A" ++ [laterUsage outOfOrder]) := by
  refine verifyStream_ungranted standardClassifier streamRegistry streamRegistry_coversStream
    streamRegistry_chargesArms sampleProtobuf _ _ ?_ ?_ (by decide +kernel) (by decide +kernel)
  · simp [twinCalls, startTool, toolDelta, stop, startText, StreamEvent.textDelta,
      StreamEvent.signatureDelta, laterUsage]
  · unfold UniformSignatures
    decide

/-- A registry whose block arms are containers: the leaves of a block are charged,
its arm is not. -/
def containerRegistry : Registry :=
  { streamRegistry with
    policy := fun name field =>
      if name = .contentBlockStart ∧ field ≠ "index" then .container
      else streamRegistry.policy name field }

lemma containerRegistry_coversStream : CoversStream containerRegistry where
  registered _ := rfl
  named _ _ hf := mem_map_of_mem hf
  leaves name f hf hleaf := by
    by_cases harm : name = .contentBlockStart ∧ f.1 ≠ "index"
    · -- the arms are messages
      obtain ⟨rfl, hne⟩ := harm
      simp [descriptor] at hf
      rcases hf with rfl | rfl | rfl | rfl | rfl
      · exact absurd rfl hne
      all_goals cases hleaf
    have hpolicy : containerRegistry.policy name f.1 = streamRegistry.policy name f.1 :=
      if_neg harm
    rw [hpolicy]
    exact streamRegistry_coversStream.leaves name f hf hleaf

/-- Two signed text blocks with one content; the signatures differ in unknown
bytes. -/
def twinSignatures (first second : String) : List StreamEvent :=
  [.startText 0, .textDelta "hi",
    { event := some (.signatureDelta first), unknown := [0x78, 0x01] }, .stop 0,
    .startText 1, .textDelta "hi",
    { event := some (.signatureDelta second), unknown := [0x78, 0x02] }, .stop 1]

/-- An empty block of the given arm. -/
def emptyBlock (block : ContentBlock) : List StreamEvent :=
  [{ event := some (.contentBlockStart { index := 0, block := some block }) }, .stop 0]

/-- Both verifiers pass, without grants, a stream in which the event at the place is
another one, up to the given comparison. -/
def ChangedUngranted (same : StreamEvent → StreamEvent → Bool) (reg : Registry)
    (accepted returned : List StreamEvent) (i : Nat) : Prop :=
  (∀ ev ∈ accepted, ∀ e, ev.event ≠ some (.error e)) ∧
    verifyStream standardClassifier accepted returned (some grantNothing) = .ok () ∧
    verifyStreamPolicy reg sampleProtobuf accepted returned (some grantNothing) = .ok () ∧
    ∃ a r, accepted[i]? = some a ∧ returned[i]? = some r ∧
      same (withoutToolToken a) (withoutToolToken r) = false

/-- The block tokens of `twinSignatures` trade places, an empty tool call becomes an
empty provider block, and unknown bytes are written in another order. -/
theorem changedUngranted_twinSignatures_emptyBlock : (CoversStream streamRegistry ∧
      ChangedUngranted (eventEqual sampleProtobuf) streamRegistry
        (twinSignatures "sig-A" "sig-B") (twinSignatures "sig-B" "sig-A") 2) ∧
    (CoversStream containerRegistry ∧ ChangedUngranted (eventEqual sampleProtobuf) containerRegistry
        (emptyBlock (.toolCall { id := "", name := "" }))
        (emptyBlock (.provider { kind := "" })) 0) ∧
    ChangedUngranted (fun a r => a == r) streamRegistry [laterUsage inOrder]
      [laterUsage outOfOrder] 0 := by
  refine ⟨⟨streamRegistry_coversStream, ?_, by decide +kernel, by decide +kernel, _, _, rfl, rfl,
    by decide⟩, ⟨containerRegistry_coversStream, ?_, by decide +kernel, by decide +kernel, _, _,
    rfl, rfl, by decide⟩, ?_, by decide +kernel, by decide +kernel, _, _, rfl, rfl, by decide⟩
  · simp [twinSignatures, startText, StreamEvent.textDelta, stop]
  · simp [emptyBlock, stop]
  · simp [laterUsage]

end ToranaEdge
